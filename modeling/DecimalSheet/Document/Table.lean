import DecimalSheet.Grid.Value
import DecimalSheet.Text.Split

/-!
# Tables as text

A table is written with one line for each row and a delimiter between the cells of a row. Reading
skips blank lines and drops the blank characters around each cell, so a table may be set out in
columns.

## Main definitions

* `Delimiter`, `DelimiterError`: what stands between the cells of a row, and why it cannot
* `Table.read`: the cells of a text
* `Table.render`, `Table.renderWith`: the text of a table of values
-/

namespace DecimalSheet

/-- What stands between the cells of a row that is read. -/
inductive Delimiter where
  /-- Any run of blank characters. -/
  | blanks
  | text (s : String)
  /-- A value that is no text. -/
  | unfit (value : RawValue)

/-- The delimiter of tables that are read, unless another one is asked for. -/
def Delimiter.standard : Delimiter := text "|"

/-- The delimiter that a raw value gives. Blank characters delimit if it is missing. -/
def Delimiter.ofRaw : RawValue → Delimiter
  | .missing => blanks
  | .text s => text s
  | v => unfit v

/-- Why a value cannot stand between cells. -/
inductive DelimiterError where
  /-- The text by which cells are to be told apart is empty. -/
  | empty
  /-- The value by which cells are to be told apart is no text. -/
  | cannotSplit (value : RawValue)
  /-- The value that is to be put between cells is no text. -/
  | cannotJoin (value : RawValue)

/-- What is wrong with a delimiter. -/
def DelimiterError.message : DelimiterError → String
  | empty => "empty separator"
  | cannotSplit value => "must be str or None, not " ++ value.kind
  | cannotJoin value => "'" ++ value.kind ++ "' object has no attribute 'join'"

namespace Table

/-- The delimiter of tables that are written, unless another one is asked for. -/
def standardSeparator : String := " | "

/-- The pieces of a line between delimiters. There are none between empty delimiters. -/
def pieces (d : Delimiter) (line : List Char) : Except DelimiterError (List (List Char)) :=
  match d with
  | .blanks => .ok (Text.words line)
  | .text s =>
    match s.toList with
    | [] => .error .empty
    | c :: cs => .ok (Text.fields c cs line)
  | .unfit value => .error (.cannotSplit value)

/-- The cells of a line, without the blank characters around them. -/
def rowOfLine (d : Delimiter) (line : List Char) : Except DelimiterError (List String) :=
  (pieces d line).map fun cells => cells.map fun cell => String.ofList (Text.trim cell)

/-- The lines of a text that are not blank. -/
def nonblankLines (s : String) : List (List Char) :=
  (Text.lines s.toList).filter fun line => !line.all Text.isBlank

/-- The cells of a text, row by row. A delimiter that cannot delimit is refused only if there is
anything to delimit. -/
def read (d : Delimiter) (s : String) : Except DelimiterError (List (List String)) :=
  (nonblankLines s).mapM (rowOfLine d)

/-- A table of values as text, without a line break at its end. -/
def render (separator : String) (rows : List (List TableValue)) : String :=
  "\n".intercalate (rows.map fun row => separator.intercalate (row.map TableValue.text))

/-- A table of values as text, where a raw value gives the separator. One that is no text is refused
only if there is a row. -/
def renderWith (separator : RawValue) (rows : List (List TableValue)) :
    Except DelimiterError String :=
  match separator with
  | .text s => .ok (render s rows)
  | v => if rows = [] then .ok "" else .error (.cannotJoin v)

end Table

end DecimalSheet
