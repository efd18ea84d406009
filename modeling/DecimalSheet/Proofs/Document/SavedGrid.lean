import DecimalSheet.Document.SavedGrid
import DecimalSheet.Proofs.Address.Text
import DecimalSheet.Proofs.Except
import DecimalSheet.Proofs.Grid.TableValue

/-!
# Saved grids that are loaded again

A saved grid keeps every value under the address of its cell. Different cells have different
addresses, also as texts, so what is found under the address of a cell is its own value, and the
table is loaded with the size that it had.

## Main definitions

* `FileReader.Restores`: in both notations the data are read that were written

## Main results

* `SavedGrid.entry_cellsRecord`: what is saved under the address of a cell
* `SavedGrid.load_record`: the data of a table describe the table with its numbers spelled out
* `SavedGrid.isJsonName_append`: the ending of a name of a JSON file, in any letter case
* `FileReader.load_fileText`: a saved file is loaded with every sign, number and code
-/

namespace DecimalSheet

namespace SavedGrid

variable {rows : List (List TableValue)} {row : List TableValue} {v : TableValue} {i j width : Nat}

/-! ## Entries -/

/-- What is looked up under a name with one entry is that entry. -/
theorem lookup_of_unique {α : Type} {entries : List (String × α)} {name : String} {a : α}
    (hmem : (name, a) ∈ entries) (hunique : ∀ b, (name, b) ∈ entries → b = a) :
    entries.lookup name = some a := by
  induction entries with
  | nil => cases hmem
  | cons entry entries ih =>
    obtain ⟨key, b⟩ := entry
    rw [List.lookup_cons]
    split
    · rename_i h
      obtain rfl : name = key := eq_of_beq h
      rw [hunique b List.mem_cons_self]
    · rename_i h
      have hne : (name, a) ≠ (key, b) := by
        rintro heq
        cases heq
        simp at h
      exact ih ((List.mem_cons.1 hmem).resolve_left hne) fun b hb =>
        hunique b (List.mem_cons_of_mem _ hb)

theorem mem_mapIdx_iff {α β : Type} {f : Nat → α → β} {as : List α} {b : β} :
    b ∈ as.mapIdx f ↔ ∃ i a, as[i]? = some a ∧ f i a = b := by
  simp only [List.mem_mapIdx, List.getElem?_eq_some_iff]
  constructor
  · rintro ⟨i, hi, rfl⟩
    exact ⟨i, _, ⟨hi, rfl⟩, rfl⟩
  · rintro ⟨i, _, ⟨hi, rfl⟩, rfl⟩
    exact ⟨i, hi, rfl⟩

/-- The saved cells are the texts of the values under the texts of their addresses. -/
theorem mem_cells_iff {cell : String × String} : cell ∈ (ofRows rows).cells ↔
    ∃ i row, rows[i]? = some row ∧ ∃ j v, row[j]? = some v ∧
      ((Address.mk i j).text, v.text) = cell := by
  simp only [ofRows, List.mem_flatten, mem_mapIdx_iff]
  constructor
  · rintro ⟨_, ⟨i, row, hrow, rfl⟩, hcell⟩
    exact ⟨i, row, hrow, mem_mapIdx_iff.1 hcell⟩
  · rintro ⟨i, row, hrow, hcell⟩
    exact ⟨_, ⟨i, row, hrow, rfl⟩, mem_mapIdx_iff.2 hcell⟩

/-- The data of the cells, as a record. -/
def cellsRecord (g : SavedGrid) : RawValue :=
  .record (g.cells.map fun cell => (cell.1, .text cell.2))

/-- Under the address of a cell stands the text of its value, and of no other. -/
theorem entry_cellsRecord (hrow : rows[i]? = some row) (hv : row[j]? = some v) :
    entry (ofRows rows).cellsRecord (Address.mk i j).text = .ok (.text v.text) := by
  have hlookup : ((ofRows rows).cells.map fun cell => (cell.1, RawValue.text cell.2)).lookup
      (Address.mk i j).text = some (.text v.text) := by
    refine lookup_of_unique (List.mem_map.2 ⟨_, mem_cells_iff.2 ⟨i, row, hrow, j, v, hv, rfl⟩, rfl⟩)
      fun b hb => ?_
    -- Another cell with the same text of its address is the same cell.
    obtain ⟨cell, hcell, hb⟩ := List.mem_map.1 hb
    obtain ⟨i', row', hrow', j', v', hv', rfl⟩ := mem_cells_iff.1 hcell
    obtain ⟨haddress, rfl⟩ := Prod.mk.inj hb
    cases Address.text_injective haddress
    cases hrow.symm.trans hrow'
    cases hv.symm.trans hv'
    rfl
  show (List.lookup _ _).elim _ _ = _
  rw [hlookup]
  rfl

/-! ## Values -/

/-- The text of a value says the value with its number spelled out. -/
theorem valueOfRaw_text (v : TableValue) : valueOfRaw (.text v.text) = .ok v.spelledOut := by
  have hlooked : (RawValue.text v.text).lookedUp = .ok (.text v.text) := rfl
  rw [valueOfRaw, hlooked]
  cases v with
  | error code =>
    have hcode : codeOfRaw? (.text (TableValue.text (.error code))) = some code :=
      ErrorCode.ofText?_text code
    simp only [Except.mapError, bind, Except.bind, hcode]
    rfl
  | ok d =>
    have hcode : codeOfRaw? (.text (TableValue.text (.ok d))) = none := ErrorCode.ofText?_plain d
    have hnumber : Decimal.ofRaw (.text (TableValue.text (.ok d))) = .ok d.spelledOut :=
      Decimal.ofRaw_plain d
    simp only [Except.mapError, bind, Except.bind, hcode, hnumber]
    rfl

/-! ## Rows -/

theorem fromNumber_length {α : Type} {f : Nat → Except LoadError α} {as : List α}
    (h : ∀ k a, as[k]? = some a → f (i + k) = .ok a) : fromNumber f i as.length = .ok as := by
  induction as generalizing i with
  | nil => rfl
  | cons a as ih =>
    have hfirst : f i = .ok a := h 0 a rfl
    have hrest : fromNumber f (i + 1) as.length = .ok as :=
      ih fun k b hb => by rw [Nat.add_right_comm]; exact h (k + 1) b hb
    show (f i >>= fun a => fromNumber f (i + 1) as.length >>= fun as => .ok (a :: as)) = _
    rw [hfirst, hrest]
    rfl

theorem loadRow_record (hrows : ∀ row ∈ rows, row.length = width) (hrow : rows[i]? = some row) :
    loadRow (ofRows rows).record (ofRows rows).cellsRecord i =
      .ok (row.map TableValue.spelledOut) := by
  have hmem : row ∈ rows := List.mem_of_getElem? hrow
  -- The width of the first row is that of every row.
  have hwidth : (ofRows rows).width = (row.map TableValue.spelledOut).length := by
    rw [List.length_map, hrows row hmem]
    cases rows with
    | nil => cases hmem
    | cons first rest => exact hrows first List.mem_cons_self
  show fromNumber (fun j => loadValue _ ⟨i, j⟩) 0 (ofRows rows).width = _
  rw [hwidth]
  refine fromNumber_length fun j w hw => ?_
  obtain ⟨v, hv, rfl⟩ := Option.map_eq_some_iff.1 (List.getElem?_map ▸ hw)
  rw [Nat.zero_add]
  show (entry (ofRows rows).cellsRecord (Address.mk i j).text >>= valueOfRaw) = _
  rw [entry_cellsRecord hrow hv]
  exact valueOfRaw_text v

/-- The data of a table describe the table with its numbers spelled out. -/
theorem load_record (hrows : ∀ row ∈ rows, row.length = width) :
    load (ofRows rows).record = .ok (rows.map fun row => row.map TableValue.spelledOut) := by
  show fromNumber (loadRow _ (ofRows rows).cellsRecord) 0 rows.length = _
  rw [← List.length_map (f := fun row => List.map TableValue.spelledOut row)]
  refine fromNumber_length fun i w hw => ?_
  obtain ⟨row, hrow, rfl⟩ := Option.map_eq_some_iff.1 (List.getElem?_map ▸ hw)
  rw [Nat.zero_add]
  exact loadRow_record hrows hrow

/-! ## Names of files -/

/-- The letters of the ASCII block at the end of a text are put in lower case each on its own. -/
theorem exists_lowerFrom_append (before stem : List Char) {ending : List Char}
    (h : Text.IsAscii ending) : ∃ lowered,
      Text.lowerFrom before (stem ++ ending) = lowered ++ ending.map Char.toLower := by
  induction stem generalizing before with
  | nil => exact ⟨[], Text.lowerFrom_ascii h before⟩
  | cons c stem ih =>
    obtain ⟨lowered, hlowered⟩ := ih (c :: before)
    refine ⟨Text.lowerBetween before c (stem ++ ending) ++ lowered, ?_⟩
    rw [List.cons_append, Text.lowerFrom, hlowered, List.append_assoc]

/-- A name that ends in `.json` in any letter case is that of a JSON file. -/
theorem isJsonName_append (stem : String) {ending : String} (h : Text.IsAscii ending.toList)
    (hending : Text.lower ending = ".json") : isJsonName (stem ++ ending) = true := by
  obtain ⟨lowered, hlowered⟩ := exists_lowerFrom_append [] stem.toList h
  have hlower : ending.toList.map Char.toLower = ".json".toList := by
    rw [← Text.toList_lower h, hending]
  have hname : (Text.lower (stem ++ ending)).toList = lowered ++ ".json".toList := by
    rw [← hlower, ← hlowered, ← String.toList_append]
    exact String.toList_ofList
  rw [isJsonName, List.isSuffixOf_iff_suffix, hname]
  exact List.suffix_append _ _

end SavedGrid

/-! ## Files -/

namespace FileReader

open SavedGrid TableValue

variable {ε : Type} {reader : FileReader ε} {writer : FileWriter} {rows : List (List TableValue)}
  {width : Nat}

/-- In both notations the reader gives back the data of a table for which the text was written. -/
structure Restores (reader : FileReader ε) (writer : FileWriter) (g : SavedGrid) : Prop where
  json : reader.json (writer.json g) = .ok g.record
  yaml : reader.yaml (writer.yaml g) = .ok g.record

theorem data_fileText {g : SavedGrid} (h : reader.Restores writer g) (fileName : String) :
    reader.data fileName (writer.fileText g fileName) = .ok g.record := by
  unfold data FileWriter.fileText
  split
  · exact h.json
  · exact h.yaml

/-- A table whose rows have one length is loaded from the file in which it was saved, whatever the
texts in which data are written and the name of the file: with as many rows and columns, every error
as its code, and every number with its sign and, unless its exponent is positive, in its form. -/
theorem load_fileText (fileName : String) (hreader : reader.Restores writer (ofRows rows))
    (hrows : ∀ row ∈ rows, row.length = width) :
    ∃ loaded, reader.load fileName (writer.fileText (ofRows rows) fileName) = .ok loaded ∧
      loaded.length = rows.length ∧ (∀ row ∈ loaded, row.length = width) ∧
      List.Forall₂ (List.Forall₂ TableValue.Restores) rows loaded := by
  refine ⟨rows.map fun row => row.map TableValue.spelledOut, ?_, List.length_map _, ?_, ?_⟩
  · rw [load, data_fileText hreader]
    show (SavedGrid.load (ofRows rows).record).mapError _ = _
    rw [load_record hrows]
    rfl
  · refine List.forall_mem_map.2 fun row hrow => ?_
    rw [List.length_map, hrows row hrow]
  · refine List.forall₂_map_right_iff.2 (List.forall₂_same.2 fun row _ => ?_)
    exact List.forall₂_map_right_iff.2 (List.forall₂_same.2 fun v _ => v.restores_spelledOut)

/-- A reader that knows the two standard texts of one table. -/
def ofGrid (g : SavedGrid) : FileReader Unit where
  json text := if text = g.json then .ok g.record else .error ()
  yaml text := if text = g.yaml then .ok g.record else .error ()

theorem restores_ofGrid (g : SavedGrid) : (ofGrid g).Restores .standard g :=
  ⟨if_pos rfl, if_pos rfl⟩

/-- A table with zeros, exponents and codes comes back from a file whose name ends in upper case. -/
theorem load_fileText_mixedRows :
    (ofGrid (ofRows mixedRows)).Restores .standard (ofRows mixedRows) ∧
    (∀ row ∈ mixedRows, row.length = 3) ∧
    ∃ loaded, (ofGrid (ofRows mixedRows)).load "values.JSON"
        ((ofRows mixedRows).fileText "values.JSON") = .ok loaded ∧
      loaded.length = 2 ∧ (∀ row ∈ loaded, row.length = 3) ∧
      List.Forall₂ (List.Forall₂ TableValue.Restores) mixedRows loaded := by
  have hreader := restores_ofGrid (ofRows mixedRows)
  have hrows : ∀ row ∈ mixedRows, row.length = 3 := by decide
  exact ⟨hreader, hrows, load_fileText "values.JSON" hreader hrows⟩

end FileReader

end DecimalSheet
