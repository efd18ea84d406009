import DecimalSheet.Grid.Value
import DecimalSheet.RawValue
import DecimalSheet.Text.LetterCase

/-!
# Saved grids

A table of values as data for a file: its height, its width, and the text of every value under the
address of its cell. The width is that of the first row, and a table whose rows differ in length is
saved as it is, but cannot be loaded.

The data are written as a JSON object or as a YAML mapping. Numbers are written as texts, so no
digit is lost, and an error is kept by its code.

## Main definitions

* `SavedGrid`, `SavedGrid.ofRows`: the data of a table
* `SavedGrid.json`, `SavedGrid.yaml`: the data as text
* `FileWriter`, `FileWriter.fileText`, `SavedGrid.fileText`: the text of a file
* `SavedGrid.load`: the table that data describe
* `FileReader`, `FileReader.load`: the table in a file
-/

namespace DecimalSheet

/-- The data of a table of values. -/
structure SavedGrid where
  height : Nat
  width : Nat
  /-- The texts of the values under the texts of their addresses, in row-major order. -/
  cells : List (String × String)

/-- Why data describe no table. -/
inductive LoadError where
  /-- There is no entry with the name. -/
  | missing (name : String)
  /-- A height or a width is not a number. -/
  | notACount (value : RawValue)
  /-- The data, or their cells, have no entries under names. -/
  | notARecord (value : RawValue)
  /-- A cell holds a collection, which is no code of an error and cannot be. -/
  | collection (error : MembersError)
  /-- A cell holds neither a literal nor the code of an error. -/
  | fault (fault : Fault)

/-- What is said of a value that has no entries under names. -/
def LoadError.entriesText : RawValue → String
  | .sequence .square _ => "list indices must be integers or slices, not str"
  | .text _ => "string indices must be integers, not 'str'"
  | v => "'" ++ v.kind ++ "' object is not subscriptable"

/-- What is wrong with data. -/
def LoadError.message : LoadError → String
  | missing name => Text.quoted name
  | notACount value => "'" ++ value.kind ++ "' object cannot be interpreted as an integer"
  | notARecord value => entriesText value
  | collection error => error.message
  | .fault f => f.message

namespace SavedGrid

/-! ## Saving -/

/-- The saved cells of the row with the number `i`. -/
def cellsOfRow (i : Nat) (row : List TableValue) : List (String × String) :=
  row.mapIdx fun j value => ((Address.mk i j).text, value.text)

/-- The data of a table. -/
def ofRows (rows : List (List TableValue)) : SavedGrid where
  height := rows.length
  width := (rows.head?.getD []).length
  cells := (rows.mapIdx cellsOfRow).flatten

/-- The data as a record. -/
def record (g : SavedGrid) : RawValue :=
  .record [("height", .whole g.height), ("width", .whole g.width),
    ("cells", .record (g.cells.map fun cell => (cell.1, .text cell.2)))]

/-- A text in double quotes. It has to be free of characters that have to be escaped. -/
def inQuotes (s : String) : String := "\"" ++ s ++ "\""

/-- The cells as the members of a JSON object, each on a line of its own. -/
def jsonCells (g : SavedGrid) : String :=
  ",\n".intercalate (g.cells.map fun cell =>
    "        " ++ inQuotes cell.1 ++ ": " ++ inQuotes cell.2)

/-- The data as a JSON object. -/
def json (g : SavedGrid) : String :=
  "\x7b\n    \"height\": " ++ toString g.height ++ ",\n    \"width\": " ++ toString g.width ++
    ",\n    \"cells\": \x7b" ++
    (if g.cells.isEmpty then "" else "\n" ++ g.jsonCells ++ "\n    ") ++ "\x7d\n\x7d"

/-- The data as a YAML mapping. -/
def yaml (g : SavedGrid) : String :=
  "height: " ++ toString g.height ++ "\nwidth: " ++ toString g.width ++ "\ncells:" ++
    (if g.cells.isEmpty then " \x7b\x7d\n" else
      "\n" ++ String.join (g.cells.map fun cell => "  " ++ cell.1 ++ ": '" ++ cell.2 ++ "'\n"))

/-- A file with this name holds JSON: the name ends in `.json`, in any letter case. -/
def isJsonName (fileName : String) : Bool :=
  ".json".toList.isSuffixOf (Text.lower fileName).toList

/-! ## Loading -/

/-- The entry of some data under a name. -/
def entry (data : RawValue) (name : String) : Except LoadError RawValue :=
  match data with
  | .record entries => (entries.lookup name).elim (.error (.missing name)) .ok
  | _ => .error (.notARecord data)

/-- A number of rows or columns. There are none if it is negative. -/
def count : RawValue → Except LoadError Nat
  | .whole n => .ok n.toNat
  | .truth b => .ok b.toNat
  | v => .error (.notACount v)

/-- The code that a raw value says, if it is the text of one. -/
def codeOfRaw? : RawValue → Option ErrorCode
  | .text s => ErrorCode.ofText? s
  | _ => none

/-- The value that a raw value says: the error of a code, or the number of a literal. -/
def valueOfRaw (v : RawValue) : Except LoadError TableValue := do
  let v ← v.lookedUp.mapError .collection
  match codeOfRaw? v with
  | some code => .ok (.error code)
  | none => ((Decimal.ofRaw v).mapError .fault).map .ok

/-- The value of a cell. -/
def loadValue (cells : RawValue) (a : Address) : Except LoadError TableValue := do
  valueOfRaw (← entry cells a.text)

/-- What `f` makes of `count` numbers from `i` on, up to the first that it refuses. -/
def fromNumber {α : Type} (f : Nat → Except LoadError α) (i : Nat) :
    Nat → Except LoadError (List α)
  | 0 => .ok []
  | count + 1 => do
    let a ← f i
    let as ← fromNumber f (i + 1) count
    .ok (a :: as)

/-- The values of the row with the number `i`. -/
def loadRow (data cells : RawValue) (i : Nat) : Except LoadError (List TableValue) := do
  -- The width is looked up for each row, so it may be missing where there are none.
  let width ← count (← entry data "width")
  fromNumber (fun j => loadValue cells ⟨i, j⟩) 0 width

/-- The table that data describe. -/
def load (data : RawValue) : Except LoadError (List (List TableValue)) := do
  let cells ← entry data "cells"
  let height ← count (← entry data "height")
  fromNumber (loadRow data cells) 0 height

end SavedGrid

/-! ## Files -/

/-- The text that is written to a file for the data of a table, in each of the two notations. -/
structure FileWriter where
  json : SavedGrid → String
  yaml : SavedGrid → String

namespace FileWriter

/-- The data as the text of a file with the given name: JSON if the name says so, else YAML. -/
def fileText (writer : FileWriter) (g : SavedGrid) (fileName : String) : String :=
  if SavedGrid.isJsonName fileName then writer.json g else writer.yaml g

/-- JSON with the entries below one another, and YAML with one line for each cell. -/
def standard : FileWriter := ⟨SavedGrid.json, SavedGrid.yaml⟩

end FileWriter

/-- The data as the text of a file with the given name, as the standard writer has it. -/
def SavedGrid.fileText (g : SavedGrid) (fileName : String) : String :=
  FileWriter.standard.fileText g fileName

/-- The data in the text of a file, in each of the two notations, or why the text does not follow
the notation. -/
structure FileReader (ε : Type) where
  json : String → Except ε RawValue
  yaml : String → Except ε RawValue

namespace FileReader

variable {ε : Type}

/-- The data in the text of a file with the given name: JSON if the name says so, else YAML. -/
def data (reader : FileReader ε) (fileName text : String) : Except ε RawValue :=
  if SavedGrid.isJsonName fileName then reader.json text else reader.yaml text

/-- The table in the text of a file with the given name, or why there is none: the text may not
follow the notation, and the data may not describe a table. -/
def load (reader : FileReader ε) (fileName text : String) :
    Except (ε ⊕ LoadError) (List (List TableValue)) := do
  let data ← (reader.data fileName text).mapError .inl
  (SavedGrid.load data).mapError .inr

end FileReader

end DecimalSheet
