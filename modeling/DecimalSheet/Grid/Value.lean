import DecimalSheet.Decimal.Notation
import DecimalSheet.Fault

/-!
# Values in tables

What stands in a cell of a table of results: a number, or the code of the error that took its
place.

## Main definitions

* `Decimal.ofRaw`: the number that a raw value says
* `TableValue`: a number or the code of an error
* `TableValue.text`: a value as a table shows it
-/

namespace DecimalSheet

/-- The number that a raw value says, which has to be the text of a literal. -/
def Decimal.ofRaw (v : RawValue) : Except Fault Decimal :=
  match v with
  | .text s => (ofLiteral? s).elim (.error (.invalidNumber v)) .ok
  | _ => .error (.invalidNumber v)

/-- A number, or the code of the error that took its place. -/
abbrev TableValue : Type := Except ErrorCode Decimal

/-- A value as a table shows it: a number in plain notation, an error by its code. -/
def TableValue.text : TableValue → String
  | .ok value => value.plain
  | .error code => code.text

end DecimalSheet
