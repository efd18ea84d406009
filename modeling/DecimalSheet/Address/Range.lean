import DecimalSheet.Address.Pair
import DecimalSheet.Text.Split

/-!
# Ranges

A range is named by two corners of a rectangle, in any order. The corners are kept as they were
written, and the members always run row by row from the top left to the bottom right.

## Main definitions

* `Range`: two corners
* `Range.height`, `Range.width`, `Range.rows`, `Range.members`: the rectangle
* `Range.member`: the member with a number, counted row by row
* `Reference`: an address or a range
* `Range.ofRaw`, `Reference.read`: reading
-/

namespace DecimalSheet

/-- The rectangle between two corners, as written. -/
structure Range where
  start : Address
  stop : Address
deriving DecidableEq, Inhabited

namespace Range

/-- The corners as written, with a colon between them. -/
def text (r : Range) : String := r.start.text ++ ":" ++ r.stop.text

/-- The topmost row. -/
def minRow (r : Range) : Nat := min r.start.row r.stop.row

/-- The bottommost row. -/
def maxRow (r : Range) : Nat := max r.start.row r.stop.row

/-- The leftmost column. -/
def minCol (r : Range) : Nat := min r.start.col r.stop.col

/-- The rightmost column. -/
def maxCol (r : Range) : Nat := max r.start.col r.stop.col

/-- The number of rows. -/
def height (r : Range) : Nat := r.maxRow - r.minRow + 1

/-- The number of columns. -/
def width (r : Range) : Nat := r.maxCol - r.minCol + 1

/-- The number of members. -/
def size (r : Range) : Nat := r.height * r.width

/-- The addresses in the range, row by row. -/
def rows (r : Range) : List (List Address) :=
  (List.range r.height).map fun i =>
    (List.range r.width).map fun j => ⟨r.minRow + i, r.minCol + j⟩

/-- The addresses in the range, in row-major order. -/
def members (r : Range) : List Address := r.rows.flatten

/-- The member with the number `i`, counted row by row from zero. -/
def member (r : Range) (i : Nat) : Address :=
  ⟨r.minRow + i / r.width, r.minCol + i % r.width⟩

end Range

/-- What a formula may refer to: a cell or a range. -/
inductive Reference where
  | cell (address : Address)
  | range (range : Range)
deriving DecidableEq

namespace Reference

/-- The text of the address or of the range. -/
def text : Reference → String
  | cell a => a.text
  | range r => r.text

/-- The addresses that the reference stands for, row by row. -/
def rows : Reference → List (List Address)
  | cell a => [[a]]
  | range r => r.rows

/-- The addresses that the reference stands for, in row-major order. -/
def members (r : Reference) : List Address := r.rows.flatten

/-- Reads an address, or two addresses with a colon between them. -/
def read (s : String) : Except AddressError Reference :=
  match Text.fields ':' [] s.toList with
  | [_] => (Address.read s).map cell
  | [a, b] => do
    let start ← Address.read (String.ofList a)
    let stop ← Address.read (String.ofList b)
    .ok (range ⟨start, stop⟩)
  | _ => .error (.notACoordinateOrRange s)

/-- The reference that a raw value names, which has to be a text. -/
def ofRaw : RawValue → Except AddressError Reference
  | .text s => read s
  | v => .error (.notText v)

end Reference

namespace Range

/-- The range that a raw value names: a text that names a range, or a collection of two corners.
A third corner is looked at, and refused, before the count is. -/
def ofRaw : RawValue → Except AddressError Range
  | .text s => do
    match ← Reference.read s with
    | .range r => .ok r
    | .cell a => .error (.notARange a.text)
  | v =>
    match v.items? with
    | none => .error (.notCorners v)
    | some items => do
      -- All corners that are looked at have to be addresses before they are counted.
      match ← (items.take 3).mapM Address.ofRaw with
      | [start, stop] => .ok ⟨start, stop⟩
      | [_, _, _] => .error .tooMany
      | corners => .error (.tooFew corners.length)

end Range

end DecimalSheet
