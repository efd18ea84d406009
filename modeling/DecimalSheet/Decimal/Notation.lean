import DecimalSheet.Decimal.Basic
import DecimalSheet.Text.Blank

/-!
# Written decimal numbers

A decimal number is written plainly, with all its digits, or in scientific notation, which turns
to a power of ten when the plain text would grow long. A literal is what a cell or a formula may
hold: plain digits with at most one point.

## Main definitions

* `Decimal.plain`: plain notation
* `Decimal.scientific`: scientific notation
* `Decimal.ofLiteral?`: the number of a literal
* `Decimal.ofNotation?`: the number of a text in either notation
-/

namespace DecimalSheet.Decimal

/-! ## Writing -/

/-- The digits of a coefficient with a point before the last `places` of them, and with at least
one digit before the point. -/
def pointed (coefficient places : Nat) : List Char :=
  let ds := Nat.toDigits 10 coefficient
  let padded := List.replicate (places + 1 - ds.length) '0' ++ ds
  padded.take (padded.length - places) ++ '.' :: padded.drop (padded.length - places)

/-- The digits of `coefficient · 10 ^ exponent` in plain notation. -/
def plainDigits (coefficient : Nat) (exponent : Int) : List Char :=
  match exponent with
  | .ofNat k =>
    if coefficient = 0 then ['0'] else Nat.toDigits 10 coefficient ++ List.replicate k '0'
  | .negSucc k => pointed coefficient (k + 1)

/-- A minus in front of a negative number. -/
def signText (d : Decimal) : List Char := if d.negative then ['-'] else []

/-- Plain notation: all digits, and no power of ten. -/
def plain (d : Decimal) : String :=
  String.ofList (d.signText ++ plainDigits d.coefficient d.exponent)

/-- A whole number with its sign, also if it is positive. -/
def exponentText (n : Int) : List Char :=
  (if n < 0 then '-' else '+') :: Nat.toDigits 10 n.natAbs

/-- The digits of a coefficient with a point after the first of them, if there are more. -/
def leadingDigit : List Char → List Char
  | d :: e :: ds => d :: '.' :: e :: ds
  | ds => ds

/-- Scientific notation: plain if the exponent is not positive and the first digit stands at most
six places after the point, otherwise one digit, the others after a point, and a power of ten. -/
def scientific (d : Decimal) : String :=
  let ds := Nat.toDigits 10 d.coefficient
  -- the exponent that belongs to the first digit
  let adjusted := d.exponent + ds.length - 1
  if d.exponent ≤ 0 ∧ -6 ≤ adjusted then d.plain
  else String.ofList (d.signText ++ leadingDigit ds ++ 'E' :: exponentText adjusted)

/-! ## Reading -/

/-- The number of a text of digits with at most one point and at least one digit. -/
def ofUnsigned? (negative : Bool) (cs : List Char) : Option Decimal :=
  let whole := cs.takeWhile Char.isDigit
  match cs.dropWhile Char.isDigit with
  | [] => if whole = [] then none else some ⟨negative, Nat.ofDigitChars 10 whole 0, 0⟩
  | c :: places =>
    if c = '.' ∧ places.all Char.isDigit ∧ ¬(whole = [] ∧ places = []) then
      some ⟨negative, Nat.ofDigitChars 10 (whole ++ places) 0, -(places.length : Int)⟩
    else none

/-- The number of an unsigned text after an optional sign. -/
def ofSigned? : List Char → Option Decimal
  | '+' :: cs => ofUnsigned? false cs
  | '-' :: cs => ofUnsigned? true cs
  | cs => ofUnsigned? false cs

/-- The number of a literal: an optional sign and digits with at most one point, between optional
blank characters. The digits after the point are kept, trailing zeros included. -/
def ofLiteral? (s : String) : Option Decimal :=
  ofSigned? (Text.trim s.toList)

/-- The whole number of a text of digits after an optional sign. -/
def wholeNumber? (cs : List Char) : Option Int :=
  let unsigned? (ds : List Char) : Option Nat :=
    if ds ≠ [] ∧ ds.all Char.isDigit then some (Nat.ofDigitChars 10 ds 0) else none
  match cs with
  | '+' :: ds => (unsigned? ds).map Int.ofNat
  | '-' :: ds => (unsigned? ds).map fun n => -(n : Int)
  | ds => (unsigned? ds).map Int.ofNat

/-- The number of a text in plain or scientific notation. -/
def ofNotation? (s : String) : Option Decimal :=
  let cs := s.toList
  let isMark (c : Char) : Bool := c == 'E' || c == 'e'
  match cs.dropWhile (!isMark ·) with
  | [] => ofSigned? cs
  | _ :: power => do
    let d ← ofSigned? (cs.takeWhile (!isMark ·))
    let e ← wholeNumber? power
    some { d with exponent := d.exponent + e }

end DecimalSheet.Decimal
