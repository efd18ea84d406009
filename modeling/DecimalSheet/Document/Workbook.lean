import DecimalSheet.Address.Basic

/-!
# Workbooks

A workbook is a list of sheets, each with values at some addresses. A sheet is read from its first
cell to the last row and the last column that it uses, as rows of texts from which a grid can be
built.

## Main definitions

* `Sheet`, `Workbook`: sheets and workbooks
* `Sheet.rows`: the used part of a sheet
* `Workbook.sheet?`: the sheet with a name
-/

namespace DecimalSheet

/-- A sheet with values at some addresses. -/
structure Sheet where
  title : String
  cells : List (Address × RawValue)

/-- A list of sheets, one of which is active. -/
structure Workbook where
  sheets : List Sheet
  active : Nat

namespace Sheet

/-- The addresses at which the sheet holds a value. -/
def used (s : Sheet) : List Address :=
  s.cells.filterMap fun cell =>
    match cell.2 with
    | .missing => none
    | _ => some cell.1

/-- The number of rows from the first to the last one that is used, and at least one. -/
def usedHeight (s : Sheet) : Nat := s.used.foldl (fun n a => max n (a.row + 1)) 1

/-- The number of columns from the first to the last one that is used, and at least one. -/
def usedWidth (s : Sheet) : Nat := s.used.foldl (fun n a => max n (a.col + 1)) 1

/-- A value as text: the words for truth in upper case, a whole number without a point, and
nothing where there is no value. -/
def valueText : RawValue → String
  | .missing => ""
  | .truth b => if b then "TRUE" else "FALSE"
  | .real d =>
    let text := RawValue.realText d
    if text.endsWith ".0" then d.whole?.elim text toString else text
  | v => v.display

/-- The text of the cell at an address. -/
def cellText (s : Sheet) (a : Address) : String := valueText ((s.cells.lookup a).getD .missing)

/-- The texts of the used part of the sheet, row by row. -/
def rows (s : Sheet) : List (List String) :=
  (List.range s.usedHeight).map fun i => (List.range s.usedWidth).map fun j => s.cellText ⟨i, j⟩

end Sheet

namespace Workbook

/-- The titles of the sheets. -/
def titles (w : Workbook) : List String := w.sheets.map (·.title)

/-- What is said of a title that no sheet has. -/
def noSheetMessage (title : String) : String :=
  Text.quoted ("Worksheet " ++ title ++ " does not exist.")

/-- The sheet with a title, or the active sheet if what is given for the title is nothing. -/
def sheet? (w : Workbook) (title : RawValue) : Option Sheet :=
  if title.isNothing then w.sheets[w.active]?
  else
    match title with
    | .text s => w.sheets.find? (·.title == s)
    | _ => none

end Workbook

end DecimalSheet
