import DecimalSheet.Document.Table
import DecimalSheet.Proofs.Grid.TableValue
import DecimalSheet.Proofs.Text.Joining

/-!
# Tables that are read from their text

A rendered table has one line for each row and a separator between the cells of a row. The texts of
values contain no blank character and no delimiter, so reading finds the same lines and the same
cells, as long as there is a cell in every row.

## Main definitions

* `Table.IsWord s`: a text that is read as one cell

## Main results

* `Table.read_joined`: words that are joined to lines and to a text are read as the same rows
* `Table.read_render`: a rendered table is read as the texts of its values
-/

namespace DecimalSheet.Table

variable {rows : List (List String)} {row : List String}

/-- The text is read as one cell: it is not empty, and it contains no blank character and no
delimiter. -/
structure IsWord (s : String) : Prop where
  ne_nil : s.toList ≠ []
  plain : ∀ c ∈ s.toList, Text.isBlank c = false ∧ c ≠ '|'

theorem isWord_text (v : TableValue) : IsWord v.text where
  ne_nil := v.toList_text_ne_nil
  plain _ hc := ⟨(v.of_mem_text hc).1, (v.of_mem_text hc).2.1⟩

/-- The cells of a row, joined to a line. -/
def line (row : List String) : String := standardSeparator.intercalate row

theorem toList_line (row : List String) :
    (line row).toList = ([' '] ++ '|' :: [' ']).intercalate (row.map String.toList) := by
  rw [line, String.toList_intercalate]
  rfl

/-- The cells of a line of words are the words. -/
theorem rowOfLine_line (hrow : ∀ s ∈ row, IsWord s) (hne : row ≠ []) :
    rowOfLine .standard (line row).toList = .ok row := by
  have hspace : ∀ c ∈ [' '], Text.isBlank c = true := List.forall_mem_singleton.2 (by decide)
  have hcells : ∀ cell ∈ row.map String.toList,
      '|' ∉ cell ∧ ∀ c ∈ cell, Text.isBlank c = false := by
    refine List.forall_mem_map.2 fun s hs => ⟨fun hmem => ?_, fun c hc => ?_⟩
    · exact ((hrow s hs).plain _ hmem).2 rfl
    · exact ((hrow s hs).plain c hc).1
  have hbar : Text.isBlank '|' = false := by decide
  have hfields := Text.map_trim_fields_intercalate hbar hspace hspace (List.forall_mem_nil _)
    hcells (by simpa using hne)
  show Except.ok ((Text.fields '|' [] (line row).toList).map fun cell =>
    String.ofList (Text.trim cell)) = _
  rw [← Function.comp_def, ← List.map_map, toList_line]
  rw [List.nil_append] at hfields
  rw [hfields, List.map_map]
  simp [Function.comp_def]

/-- A line of words is not blank, and it contains no line break. -/
theorem line_isLine (hrow : ∀ s ∈ row, IsWord s) (hne : row ≠ []) :
    (∃ c ∈ (line row).toList, Text.isBlank c = false) ∧
      ∀ c ∈ (line row).toList, Text.isLineBreak c = false := by
  rw [toList_line]
  refine ⟨?_, Text.forall_mem_intercalate ?_ (List.forall_mem_map.2 fun s hs c hc => ?_)⟩
  · -- the first character of the first cell
    obtain ⟨s, rest, rfl⟩ := List.exists_cons_of_ne_nil hne
    have hword := hrow s List.mem_cons_self
    obtain ⟨c, hc⟩ := List.exists_mem_of_ne_nil _ hword.ne_nil
    exact ⟨c, Text.mem_intercalate_cons hc, (hword.plain c hc).1⟩
  · exact List.forall_mem_cons.2 ⟨by decide, List.forall_mem_cons.2 ⟨by decide,
      List.forall_mem_singleton.2 (by decide)⟩⟩
  · by_contra hbreak
    have hblank := Text.isBlank_of_isLineBreak (Bool.not_eq_false _ ▸ hbreak)
    simp [((hrow s hs).plain c hc).1] at hblank

/-- Words that are joined to lines, and these to a text, are read as the same rows. -/
theorem read_joined (hrows : ∀ row ∈ rows, row ≠ [] ∧ ∀ s ∈ row, IsWord s) :
    read .standard ("\n".intercalate (rows.map line)) = .ok rows := by
  have hlines : nonblankLines ("\n".intercalate (rows.map line)) =
      rows.map fun row => (line row).toList := by
    have hall : ∀ l ∈ rows.map fun row => (line row).toList,
        (∃ c ∈ l, Text.isBlank c = false) ∧ ∀ c ∈ l, Text.isLineBreak c = false :=
      List.forall_mem_map.2 fun row hrow => line_isLine (hrows row hrow).2 (hrows row hrow).1
    rw [nonblankLines, String.toList_intercalate, List.map_map]
    show (Text.lines (['\n'].intercalate (rows.map fun row => (line row).toList))).filter _ = _
    rw [Text.lines_intercalate fun l hl => ⟨?_, (hall l hl).2⟩]
    · refine List.filter_eq_self.2 fun l hl => ?_
      obtain ⟨c, hc, hblank⟩ := (hall l hl).1
      simpa using ⟨c, hc, hblank⟩
    · obtain ⟨c, hc, -⟩ := (hall l hl).1
      exact List.ne_nil_of_mem hc
  rw [read, hlines]
  clear hlines
  induction rows with
  | nil => rfl
  | cons row rows ih =>
    obtain ⟨⟨hne, hrow⟩, hrest⟩ := List.forall_mem_cons.1 hrows
    rw [List.map_cons, List.mapM_cons, rowOfLine_line hrow hne, ih hrest]
    rfl

/-- A rendered table is read as the texts of its values. -/
theorem read_render {rows : List (List TableValue)} (hrows : ∀ row ∈ rows, row ≠ []) :
    read .standard (render standardSeparator rows) =
      .ok (rows.map fun row => row.map TableValue.text) := by
  have hwords : ∀ row ∈ rows.map fun row => row.map TableValue.text,
      row ≠ [] ∧ ∀ s ∈ row, IsWord s :=
    List.forall_mem_map.2 fun row hrow =>
      ⟨by simpa using hrows row hrow, List.forall_mem_map.2 fun v _ => isWord_text v⟩
  have hread := read_joined hwords
  rwa [List.map_map] at hread

end DecimalSheet.Table
