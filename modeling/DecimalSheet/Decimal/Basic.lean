/-!
# Decimal numbers

A decimal number is a sign, a natural coefficient and an integer exponent. One number has many
such forms: `1`, `1.00` and `10E-1` differ in coefficient and exponent, and zero has a sign. The
arithmetic keeps track of the form, and the comparisons look at the number alone. Powers are
written `Nat.pow` throughout: what `^` unfolds to depends on the imports.

## Main definitions

* `Decimal`: sign, coefficient and exponent
* `Decimal.signed`, `Decimal.unitsAt`: the signed coefficient, also at a smaller exponent
* `Decimal.whole?`: the number as an integer
* `Decimal.Le`, `Decimal.Lt`, `Decimal.SameValue`: comparison of the numbers
-/

namespace DecimalSheet

/-- The number `± coefficient · 10 ^ exponent`. -/
structure Decimal where
  negative : Bool
  coefficient : Nat
  exponent : Int
deriving DecidableEq, Inhabited

namespace Decimal

/-- A natural number, with exponent zero. -/
def ofNat (n : Nat) : Decimal := ⟨false, n, 0⟩

/-- The number zero, without a sign and with exponent zero. -/
def zero : Decimal := ofNat 0

/-- The number one, with exponent zero. -/
def one : Decimal := ofNat 1

/-- The number is zero, whatever its sign and exponent. -/
def IsZero (d : Decimal) : Prop := d.coefficient = 0

instance (d : Decimal) : Decidable d.IsZero := inferInstanceAs (Decidable (_ = _))

/-- The coefficient with the sign of the number. -/
def signed (d : Decimal) : Int :=
  if d.negative then -(d.coefficient : Int) else d.coefficient

/-- The number in units of `10 ^ e`, for an exponent `e` that is not above its own. -/
def unitsAt (d : Decimal) (e : Int) : Int :=
  d.signed * Nat.pow 10 (d.exponent - e).toNat

/-- The number as an integer, if it is whole. -/
def whole? (d : Decimal) : Option Int :=
  if d.coefficient % Nat.pow 10 (-d.exponent).toNat = 0 then
    some (d.signed / Nat.pow 10 (-d.exponent).toNat * Nat.pow 10 d.exponent.toNat)
  else none

/-- An exponent at which both numbers are whole. -/
def commonExponent (a b : Decimal) : Int := min a.exponent b.exponent

/-- The first number is not above the second. -/
def Le (a b : Decimal) : Prop :=
  a.unitsAt (commonExponent a b) ≤ b.unitsAt (commonExponent a b)

/-- The first number is below the second. -/
def Lt (a b : Decimal) : Prop :=
  a.unitsAt (commonExponent a b) < b.unitsAt (commonExponent a b)

/-- Both are the same number, possibly in different forms. -/
def SameValue (a b : Decimal) : Prop :=
  a.unitsAt (commonExponent a b) = b.unitsAt (commonExponent a b)

instance (a b : Decimal) : Decidable (a.Le b) := inferInstanceAs (Decidable (_ ≤ _))

instance (a b : Decimal) : Decidable (a.Lt b) := inferInstanceAs (Decidable (_ < _))

instance (a b : Decimal) : Decidable (a.SameValue b) := inferInstanceAs (Decidable (_ = _))

end Decimal

end DecimalSheet
