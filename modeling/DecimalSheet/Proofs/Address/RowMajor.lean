import DecimalSheet.Proofs.Address.Canonical
import DecimalSheet.Proofs.Address.Rectangle

/-!
# Ranges in row-major order

The rows of a range cover its rectangle: each address of the rectangle is listed once, nothing else
is listed, and the addresses come in the order of addresses, row by row. The list depends on the
rectangle only, while the text of a range tells which corners were written, and in which order.

## Main results

* `Range.pairwise_members`: the members come in the order of addresses
* `Range.text_injective`: different ranges have different texts
* `Range.rows_cover_rectangle`: the rows list the rectangle once, whichever corners are written
-/

namespace DecimalSheet

theorem Address.compare_eq_lt_iff {a b : Address} :
    compare a b = .lt ↔ a.row < b.row ∨ a.row = b.row ∧ a.col < b.col := by
  have h : compare a b = (compare a.row b.row).then (compare a.col b.col) := rfl
  rw [h, Ordering.then_eq_lt, Nat.compare_eq_lt, Nat.compare_eq_eq, Nat.compare_eq_lt]

namespace Range

variable {r : Range}

/-- The members come in the order of addresses. -/
theorem pairwise_members (r : Range) : r.members.Pairwise fun a b => compare a b = .lt := by
  simp only [Address.compare_eq_lt_iff, members, rows, List.pairwise_flatten]
  constructor
  · -- within a row
    intro row hrow
    obtain ⟨i, -, rfl⟩ := List.mem_map.1 hrow
    exact List.pairwise_map.2 <|
      List.pairwise_lt_range.imp fun hlt => .inr ⟨rfl, Nat.add_lt_add_left hlt _⟩
  · -- one row above another
    refine List.pairwise_map.2 (List.pairwise_lt_range.imp fun hlt a ha b hb => .inl ?_)
    obtain ⟨j, -, rfl⟩ := List.mem_map.1 ha
    obtain ⟨k, -, rfl⟩ := List.mem_map.1 hb
    exact Nat.add_lt_add_left hlt _

theorem nodup_members (r : Range) : r.members.Nodup := by
  rw [members_eq_map]
  exact List.nodup_range.map r.member_injective

@[simp] theorem length_rows (r : Range) : r.rows.length = r.height := by
  simp [rows]

theorem length_of_mem_rows {row : List Address} (h : row ∈ r.rows) : row.length = r.width := by
  obtain ⟨i, -, rfl⟩ := List.mem_map.1 h
  simp

@[simp] theorem length_members (r : Range) : r.members.length = r.size := by
  simp [members_eq_map]

/-- Different ranges have different texts. -/
theorem text_injective : Function.Injective text := by
  intro r r' h
  have hfields := r.fields_text.symm.trans (h ▸ r'.fields_text)
  simp only [List.cons.injEq, String.toList_inj, and_true] at hfields
  obtain ⟨hstart, hstop⟩ := hfields
  cases r
  cases r'
  congr 1
  · exact Address.text_injective hstart
  · exact Address.text_injective hstop

/-- A range lists each address of its rectangle once and no other address, in the order of
addresses, in as many rows as it is high, each with as many addresses as it is wide. A reference to
the range lists the same, and so does a count of its members. Exchanging the rows of the corners,
their columns or both changes nothing about that, but the corners are kept as they were written: the
text shows them, and no other range has this text. -/
theorem rows_cover_rectangle (start stop : Address) :
    let r : Range := ⟨start, stop⟩
    (∀ a, r.rows.flatten.count a =
      if (min start.row stop.row ≤ a.row ∧ a.row ≤ max start.row stop.row) ∧
        min start.col stop.col ≤ a.col ∧ a.col ≤ max start.col stop.col then 1 else 0) ∧
    r.rows.flatten.Pairwise (fun a b => compare a b = .lt) ∧
    (r.rows.length = r.height ∧ (∀ row ∈ r.rows, row.length = r.width) ∧
      r.rows.flatten.length = r.height * r.width) ∧
    ((Reference.range r).members = r.rows.flatten ∧
      (List.range r.size).map r.member = r.rows.flatten) ∧
    (∀ r' ∈ [Range.mk ⟨stop.row, start.col⟩ ⟨start.row, stop.col⟩,
      ⟨⟨start.row, stop.col⟩, ⟨stop.row, start.col⟩⟩, ⟨stop, start⟩], r'.rows = r.rows) ∧
    r.text = start.text ++ ":" ++ stop.text ∧ ∀ r' : Range, r'.text = r.text ↔ r' = r := by
  intro r
  refine ⟨fun a => ?_, r.pairwise_members, ⟨r.length_rows, fun _ => length_of_mem_rows,
    r.length_members⟩, ⟨rfl, r.members_eq_map.symm⟩, fun r' hr' => ?_, rfl,
    fun r' => text_injective.eq_iff⟩
  · show r.members.count a = _
    split
    · rename_i ha
      exact List.count_eq_one_of_mem r.nodup_members (mem_members_iff.2 ha)
    · rename_i ha
      exact List.count_eq_zero_of_not_mem fun hmem => ha (mem_members_iff.1 hmem)
  · -- each of the three has the same rectangle
    suffices hsame : r.SameRectangle r' from hsame.rows_eq
    simp only [List.mem_cons, List.not_mem_nil, or_false] at hr'
    rw [sameRectangle_iff]
    rcases hr' with rfl | rfl | rfl <;> simp [r]

/-- The corners `B2` and `A1` are those of two rows, of which the first one is the upper one. -/
example : (Range.mk ⟨1, 1⟩ ⟨0, 0⟩).rows = [[⟨0, 0⟩, ⟨0, 1⟩], [⟨1, 0⟩, ⟨1, 1⟩]] := by decide

end Range

end DecimalSheet
