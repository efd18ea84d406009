import DecimalSheet.Address.Basic
import DecimalSheet.Decimal.Arithmetic

/-!
# Addresses of raw values

A raw value may name a cell by its text, or by its row and its column, both counted from zero. What
is wrong with such a pair is told in a fixed order: the row is looked at before the column, and the
column is written before the row.

## Main definitions

* `Column.ofRaw`, `Column.nameOfRaw`: the index and the letters that raw values name
* `Address.pairText`: the text that names a row and a column
* `Address.ofPair`, `Address.ofRaw`: the address of a row and a column, and of a raw value

## Main results

* `Address.ofRaw_pair`: a pair of natural numbers is the address with this row and this column
-/

namespace DecimalSheet

namespace Column

/-- A row or a column is below zero. Only a number can be. -/
def isNegative (v : RawValue) : Except AddressError Bool :=
  v.number?.elim (.error (.notANumber v)) fun d => .ok (decide (d.Lt .zero))

theorem isNegative_natCast (n : Nat) : isNegative (.whole n) = .ok false := by
  simp [isNegative, RawValue.number?, Decimal.Lt, Decimal.unitsAt, Decimal.signed,
    Decimal.commonExponent, Decimal.zero, Decimal.ofNat, show ¬(n : Int) < 0 by omega]

/-- The index that a raw value is, which has to be a whole number. -/
def indexOfRaw : RawValue → Except AddressError Nat
  | .whole n => .ok n.toNat
  | .truth b => .ok b.toNat
  | v => .error (.fractionalColumn v)

/-- The letters of an index, which must not be negative. -/
def nameOfRaw (v : RawValue) : Except AddressError String := do
  if ← isNegative v then .error (.negativeColumn v)
  else return String.ofList (letters (← indexOfRaw v))

/-- The index of a raw value, which has to be a text of letters. -/
def ofRaw (v : RawValue) : Except AddressError Nat :=
  match v with
  | .text s => (index? s).elim (.error (.notAColumn v)) .ok
  | _ => if v.isNothing then .error (.notAColumn v) else .error (.notLetters v)

end Column

namespace Address

/-- The least number that has too many digits for the number of a row. -/
def rowNumberLimit : Nat := Nat.pow 10 maxRowDigits

/-- The number of a row, counted from one, as an address shows it. -/
def rowText : RawValue → Except AddressError String
  | .whole n =>
    if n.toNat + 1 < rowNumberLimit then .ok (toString (n.toNat + 1)) else .error .numberTooLong
  | .truth b => .ok (toString (b.toNat + 1))
  | .real d => .ok (RawValue.realText (d.add .one))
  | v => .error (.notANumber v)

/-- The row that a raw value is, which has to be a whole number. -/
def rowOfRaw : RawValue → Except AddressError Nat
  | .whole n => .ok n.toNat
  | .truth b => .ok b.toNat
  | v => .error (.fractionalRow v)

/-- The text that names a row and a column, neither of which may be negative. -/
def pairText (row col pair : RawValue) : Except AddressError String := do
  if ← Column.isNegative row then .error (.negativeIndex pair)
  else if ← Column.isNegative col then .error (.negativeIndex pair)
  else
    let letters ← Column.nameOfRaw col
    let number ← rowText row
    return letters ++ number

/-- The address of a row and a column. -/
def ofPair (row col pair : RawValue) : Except AddressError Address := do
  let _ ← pairText row col pair
  return ⟨← rowOfRaw row, ← Column.indexOfRaw col⟩

/-- The address that a raw value names: a text to be read, or a row and a column. -/
def ofRaw (v : RawValue) : Except AddressError Address :=
  match v with
  | .text s => read s
  | _ =>
    match v.items? with
    | none => .error (.notAPair v)
    | some [row, col] => ofPair row col v
    | some items => if items.length < 2 then .error (.tooFew items.length) else .error .tooMany

theorem ofRaw_pair {row col : Nat} (brackets : Brackets) (h : row + 1 < rowNumberLimit) :
    ofRaw (.sequence brackets [.whole row, .whole col]) = .ok ⟨row, col⟩ := by
  simp [ofRaw, RawValue.items?, ofPair, pairText, Column.isNegative_natCast, Column.nameOfRaw,
    Column.indexOfRaw, rowText, rowOfRaw, h, bind, Except.bind, pure, Except.pure]

end Address

end DecimalSheet
