import DecimalSheet.Grid.Basic
import Mathlib.Data.List.Nodup
import Mathlib.Data.List.Perm.Subperm

/-!
# Rectangles of addresses

The members of a range, counted one by one, are the members row by row, and no two of them are the
same. They do not depend on which two opposite corners of the rectangle are written, and in which
order. Whatever distinct addresses lie inside of a grid, there are no more of them than the grid has
cells.

## Main definitions

* `Range.SameRectangle r r'`: the ranges have the same rectangle

## Main results

* `Range.members_eq_map`: counting runs through the members in their order
* `Range.mem_members_iff`: the members lie between the outermost rows and columns
* `Range.sameRectangle_iff`: the four ways to write the corners of a rectangle
* `Grid.length_le_size`: a grid has room for so many distinct addresses
* `Grid.map_cell?_addresses`: the cells at the addresses of a grid are its cells
-/

namespace DecimalSheet

theorem flatten_rectangle {α : Type} (f : Nat → Nat → α) (height width : Nat) :
    ((List.range height).map fun i => (List.range width).map (f i)).flatten =
      (List.range (height * width)).map fun k => f (k / width) (k % width) := by
  induction height with
  | zero => simp
  | succ height ih =>
    -- The last row is counted by the indices from `height * width` on.
    have hrow : ∀ j ∈ List.range width,
        f ((height * width + j) / width) ((height * width + j) % width) = f height j := by
      intro j hj
      have hlt := List.mem_range.1 hj
      rw [Nat.mul_comm, Nat.mul_add_div (by omega), Nat.mul_add_mod, Nat.div_eq_of_lt hlt,
        Nat.mod_eq_of_lt hlt, Nat.add_zero]
    rw [List.range_succ, List.map_append, List.flatten_append, ih, Nat.succ_mul, List.range_add,
      List.map_append, List.map_map]
    simp only [List.map_cons, List.map_nil, List.flatten_cons, List.flatten_nil, List.append_nil]
    congr 1
    exact (List.map_congr_left hrow).symm

namespace Range

/-- The members of a range in their order are those counted from zero on. -/
theorem members_eq_map (r : Range) : r.members = (List.range r.size).map r.member :=
  flatten_rectangle (fun i j => Address.mk (r.minRow + i) (r.minCol + j)) r.height r.width

theorem member_injective (r : Range) : Function.Injective r.member := by
  intro i j h
  simp only [member, Address.mk.injEq] at h
  -- The row and the column fix the quotient and the remainder, and these fix the index.
  have hdiv : i / r.width = j / r.width := by omega
  have hmod : i % r.width = j % r.width := by omega
  rw [← Nat.div_add_mod i r.width, ← Nat.div_add_mod j r.width, hdiv, hmod]

theorem minRow_le_maxRow (r : Range) : r.minRow ≤ r.maxRow :=
  Nat.le_trans (Nat.min_le_left _ _) (Nat.le_max_left _ _)

theorem minCol_le_maxCol (r : Range) : r.minCol ≤ r.maxCol :=
  Nat.le_trans (Nat.min_le_left _ _) (Nat.le_max_left _ _)

/-- The members of a range are the addresses between its outermost rows and columns. -/
theorem mem_members_iff {r : Range} {a : Address} :
    a ∈ r.members ↔
      (r.minRow ≤ a.row ∧ a.row ≤ r.maxRow) ∧ r.minCol ≤ a.col ∧ a.col ≤ r.maxCol := by
  have hrow := r.minRow_le_maxRow
  have hcol := r.minCol_le_maxCol
  obtain ⟨row, col⟩ := a
  simp only [members, rows, height, width, List.mem_flatten, List.mem_map, List.mem_range]
  constructor
  · rintro ⟨_, ⟨i, hi, rfl⟩, ha⟩
    obtain ⟨j, hj, ha⟩ := List.mem_map.1 ha
    obtain ⟨rfl, rfl⟩ := Address.mk.inj ha
    rw [List.mem_range] at hj
    omega
  · rintro ⟨⟨hminRow, hmaxRow⟩, hminCol, hmaxCol⟩
    refine ⟨_, ⟨row - r.minRow, by omega, rfl⟩, List.mem_map.2 ⟨col - r.minCol, ?_, ?_⟩⟩
    · rw [List.mem_range]
      omega
    · rw [Nat.add_sub_cancel' hminRow, Nat.add_sub_cancel' hminCol]

/-- Every range has a member. -/
theorem size_pos (r : Range) : 0 < r.size :=
  Nat.mul_pos (Nat.succ_pos _) (Nat.succ_pos _)

/-! ## Corners -/

section Corners

variable {r r' : Range}

/-- The ranges have the same rectangle, whichever corners of it are written. -/
structure SameRectangle (r r' : Range) : Prop where
  minRow_eq : r'.minRow = r.minRow
  maxRow_eq : r'.maxRow = r.maxRow
  minCol_eq : r'.minCol = r.minCol
  maxCol_eq : r'.maxCol = r.maxCol

/-- Two numbers are known by the lesser and the greater of them, up to their order. -/
theorem min_max_eq_iff {m n m' n' : Nat} :
    min m' n' = min m n ∧ max m' n' = max m n ↔ m' = m ∧ n' = n ∨ m' = n ∧ n' = m := by
  omega

/-- There are four ways to write the corners: the two rows in either order, and so the two
columns. -/
theorem sameRectangle_iff :
    r.SameRectangle r' ↔
      (r'.start.row = r.start.row ∧ r'.stop.row = r.stop.row ∨
        r'.start.row = r.stop.row ∧ r'.stop.row = r.start.row) ∧
      (r'.start.col = r.start.col ∧ r'.stop.col = r.stop.col ∨
        r'.start.col = r.stop.col ∧ r'.stop.col = r.start.col) := by
  rw [← min_max_eq_iff, ← min_max_eq_iff]
  constructor
  · rintro ⟨hminRow, hmaxRow, hminCol, hmaxCol⟩
    exact ⟨⟨hminRow, hmaxRow⟩, hminCol, hmaxCol⟩
  · rintro ⟨⟨hminRow, hmaxRow⟩, hminCol, hmaxCol⟩
    exact ⟨hminRow, hmaxRow, hminCol, hmaxCol⟩

theorem SameRectangle.rows_eq (h : r.SameRectangle r') : r'.rows = r.rows := by
  unfold rows height width
  rw [h.minRow_eq, h.maxRow_eq, h.minCol_eq, h.maxCol_eq]

theorem SameRectangle.members_eq (h : r.SameRectangle r') : r'.members = r.members :=
  congrArg List.flatten h.rows_eq

end Corners

end Range

namespace Grid

theorem addresses_eq_map (g : Grid) :
    g.addresses = (List.range g.size).map fun k => Address.mk (k / g.width) (k % g.width) :=
  flatten_rectangle Address.mk g.height g.width

theorem length_addresses (g : Grid) : g.addresses.length = g.size := by
  simp [addresses_eq_map]

@[simp] theorem mem_addresses {g : Grid} {a : Address} : a ∈ g.addresses ↔ g.Contains a := by
  obtain ⟨row, col⟩ := a
  simp [addresses, rowAddresses, Contains, Address.IsWithin]

/-- Distinct addresses inside of a grid are not more than the grid has cells. -/
theorem length_le_size {g : Grid} {as : List Address} (hnodup : as.Nodup)
    (h : ∀ a ∈ as, g.Contains a) : as.length ≤ g.size := by
  rw [← length_addresses]
  exact (List.subperm_of_subset hnodup fun a ha => mem_addresses.2 (h a ha)).length_le

theorem exists_cell?_of_contains {g : Grid} {a : Address} (h : g.Contains a) :
    ∃ c, g.cell? a = some c :=
  Option.isSome_iff_exists.1 (isSome_cell?.2 h)

theorem contains_of_cell? {g : Grid} {a : Address} {c : Cell} (h : g.cell? a = some c) :
    g.Contains a := by
  rw [← isSome_cell?, h]
  rfl

/-- Grids of the same size have cells at the same addresses. -/
theorem rel_cell? {g g' : Grid} {R : Cell → Cell → Prop} {a : Address}
    (hheight : g'.height = g.height) (hwidth : g'.width = g.width)
    (h : ∀ cell cell', g.cell? a = some cell → g'.cell? a = some cell' → R cell cell') :
    Option.Rel R (g.cell? a) (g'.cell? a) := by
  have hsome : (g.cell? a).isSome ↔ (g'.cell? a).isSome := by
    rw [isSome_cell?, isSome_cell?, Contains, Contains, hheight, hwidth]
  cases hcell : g.cell? a <;> cases hcell' : g'.cell? a
  · exact .none
  · simp [hcell, hcell'] at hsome
  · simp [hcell, hcell'] at hsome
  · exact .some (h _ _ hcell hcell')

/-- The cells at the addresses of a grid are the cells of the grid, in the same order. -/
theorem map_cell?_addresses (g : Grid) : g.addresses.map g.cell? = g.cells.map some := by
  unfold addresses rowAddresses cells cellRows
  rw [List.map_flatten, List.map_flatten, List.map_map, List.map_map]
  congr 1
  -- Compare row by row, and then cell by cell.
  apply List.ext_getElem
  · simp
  · intro i hi _
    simp only [List.length_map, List.length_range] at hi
    apply List.ext_getElem
    · simp
    · intro j hj _
      simp only [List.getElem_map, Function.comp, List.length_map, List.length_range] at hj
      simp [cell?, hi, hj]

end Grid

end DecimalSheet
