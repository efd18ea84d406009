import DecimalSheet.Address.Column
import DecimalSheet.RawValue
import DecimalSheet.Text.Blank

/-!
# Addresses

An address names a cell of a sheet by its row and its column. It is written as the letters of the
column and the number of the row, which counts from one. Reading allows lower case, leading zeros
and blank characters around the text, and writing gives every address its one canonical text.

## Main definitions

* `Address`: a row and a column, both counted from zero, ordered row by row
* `AddressError`, `AddressError.message`: what is wrong with an address or a range
* `Address.text`, `Address.read`: writing and reading
-/

namespace DecimalSheet

/-- The position of a cell, with row and column counted from zero. -/
structure Address where
  row : Nat
  col : Nat
deriving DecidableEq, Inhabited

/-- What is wrong with a column, an address or a range. -/
inductive AddressError where
  /-- The value is not a text of letters. -/
  | notAColumn (value : RawValue)
  /-- The value is something where only a text can name a column. -/
  | notLetters (value : RawValue)
  | negativeColumn (index : RawValue)
  /-- A row or a column is not a number. -/
  | notANumber (value : RawValue)
  /-- A column is a number with places after the point. -/
  | fractionalColumn (value : RawValue)
  /-- A row is a number with places after the point. -/
  | fractionalRow (value : RawValue)
  /-- The row or the column of the pair is negative. -/
  | negativeIndex (pair : RawValue)
  | notACoordinate (text : String)
  | notACoordinateOrRange (text : String)
  /-- The text names a single cell where a range is wanted. -/
  | notARange (text : String)
  /-- The number of a row that is read has more than `Address.maxRowDigits` digits. -/
  | rowTooLong (digits : Nat)
  /-- The number of a row that is to be written has more than `Address.maxRowDigits` digits. -/
  | numberTooLong
  /-- The value is neither a text nor a pair of numbers. -/
  | notAPair (value : RawValue)
  /-- The value is neither a text nor a collection of corners. -/
  | notCorners (value : RawValue)
  /-- The value is not a text where only a text may name a range. -/
  | notText (value : RawValue)
  /-- A pair has fewer than two members. -/
  | tooFew (count : Nat)
  /-- A pair has more than two members. -/
  | tooMany

/-- The most digits that the number of a row may have. -/
def Address.maxRowDigits : Nat := 4300

/-- What is said of a number with too many digits. -/
def AddressError.limitText (detail : String) : String :=
  "Exceeds the limit (" ++ toString Address.maxRowDigits ++
    " digits) for integer string conversion" ++ detail ++
    "; use sys.set_int_max_str_digits() to increase the limit"

/-- What an error says. -/
def AddressError.message : AddressError → String
  | notAColumn value => "'" ++ value.display ++ "' is not a column"
  | notLetters value => "'" ++ value.kind ++ "' object has no attribute 'isalpha'"
  | negativeColumn index => "Column index must not be negative: " ++ index.display
  | notANumber value =>
    "'<' not supported between instances of '" ++ value.kind ++ "' and 'int'"
  | fractionalColumn value => "'" ++ value.kind ++ "' object cannot be interpreted as an integer"
  | fractionalRow value => "tuple indices must be integers or slices, not " ++ value.kind
  | negativeIndex pair => "Negative index in address: " ++ pair.display
  | notACoordinate text => text ++ " is not a valid coordinate"
  | notACoordinateOrRange text => text ++ " is not a valid coordinate or range"
  | notARange text => text ++ " is not a range"
  | rowTooLong digits => limitText (": value has " ++ toString digits ++ " digits")
  | numberTooLong => limitText ""
  | notAPair value => "cannot unpack non-iterable " ++ value.kind ++ " object"
  | notCorners value => "'" ++ value.kind ++ "' object is not iterable"
  | notText value => "'" ++ value.kind ++ "' object has no attribute 'split'"
  | tooFew count => "not enough values to unpack (expected 2, got " ++ toString count ++ ")"
  | tooMany => "too many values to unpack (expected 2)"

namespace Address

/-- The address lies in the rectangle of the given size that begins at `A1`. -/
def IsWithin (a : Address) (height width : Nat) : Prop := a.row < height ∧ a.col < width

instance (a : Address) (height width : Nat) : Decidable (a.IsWithin height width) :=
  inferInstanceAs (Decidable (_ ∧ _))

/-! ## Order -/

/-- Addresses are ordered row by row, and from left to right within a row. -/
instance : Ord Address where
  compare := compareLex (compareOn row) (compareOn col)

instance : Std.TransOrd Address :=
  inferInstanceAs (Std.TransCmp (compareLex (compareOn row) (compareOn col)))

instance : Std.LawfulEqOrd Address where
  eq_of_compare {a b} h := by
    have h' : (compare a.row b.row).then (compare a.col b.col) = .eq := h
    rw [Ordering.then_eq_eq, Nat.compare_eq_eq, Nat.compare_eq_eq] at h'
    cases a; cases b; simp_all

/-! ## Writing -/

/-- The canonical text: the letters of the column in upper case, then the number of the row. -/
def text (a : Address) : String :=
  String.ofList (Column.letters a.col ++ Nat.toDigits 10 (a.row + 1))

/-! ## Reading -/

/-- The text is letters followed by digits, with at least one of each. -/
def isCoordinate (cs : List Char) : Bool :=
  let ds := cs.dropWhile Char.isAlpha
  cs.takeWhile Char.isAlpha != [] && ds != [] && ds.all Char.isDigit

/-- Reads an address: letters and the number of a row that is not zero, with blank characters
around them allowed. -/
def read (s : String) : Except AddressError Address :=
  let cs := Text.trim s.toList
  let ds := cs.dropWhile Char.isAlpha
  if !isCoordinate cs then .error (.notACoordinate s)
  else if maxRowDigits < ds.length then .error (.rowTooLong ds.length)
  else
    match Nat.ofDigitChars 10 ds 0 with
    | 0 => .error (.notACoordinate s)
    | row + 1 => .ok ⟨row, Column.index (cs.takeWhile Char.isAlpha)⟩

end Address

end DecimalSheet
