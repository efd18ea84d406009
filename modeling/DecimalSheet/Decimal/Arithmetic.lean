import DecimalSheet.Decimal.Basic

/-!
# Exact arithmetic

Sums, differences, products and negations of decimal numbers. They are exact, so only the form of
the result is a matter of choice: a sum has the smaller of the two exponents, a product the sum of
the exponents, and a zero that does not come from two negative numbers has no sign.

## Main definitions

* `Decimal.add`, `Decimal.sub`, `Decimal.mul`, `Decimal.neg`: the exact operations

## Main results

* `Decimal.exponent_add`, `Decimal.exponent_mul`: the exponents of a sum and of a product
* `Decimal.add_comm`, `Decimal.mul_comm`: the order of the operands does not matter, not even for
  the form of the result
-/

namespace DecimalSheet.Decimal

/-- The number `units · 10 ^ exponent`, with the given sign if it is zero. -/
def ofUnits (units exponent : Int) (zeroNegative : Bool) : Decimal :=
  ⟨if units = 0 then zeroNegative else decide (units < 0), units.natAbs, exponent⟩

/-- The sum, at the smaller exponent. A sum that is zero is negative if both numbers are. -/
def add (a b : Decimal) : Decimal :=
  ofUnits (a.unitsAt (commonExponent a b) + b.unitsAt (commonExponent a b)) (commonExponent a b)
    (a.negative && b.negative)

/-- The number with the opposite sign, zero included. -/
def flipSign (a : Decimal) : Decimal := { a with negative := !a.negative }

/-- The difference, which is the sum with the sign of the second number flipped. -/
def sub (a b : Decimal) : Decimal := add a b.flipSign

/-- The product, at the sum of the exponents. -/
def mul (a b : Decimal) : Decimal :=
  ⟨a.negative != b.negative, a.coefficient * b.coefficient, a.exponent + b.exponent⟩

/-- The negation, with the same exponent. The negation of a zero has no sign. -/
def neg (a : Decimal) : Decimal :=
  ⟨!a.negative && a.coefficient != 0, a.coefficient, a.exponent⟩

@[simp] theorem exponent_add (a b : Decimal) :
    (a.add b).exponent = min a.exponent b.exponent := rfl

@[simp] theorem exponent_mul (a b : Decimal) :
    (a.mul b).exponent = a.exponent + b.exponent := rfl

theorem add_comm (a b : Decimal) : a.add b = b.add a := by
  have he : commonExponent b a = commonExponent a b := Int.min_comm ..
  rw [add, add, he, Bool.and_comm, Int.add_comm]

theorem mul_comm (a b : Decimal) : a.mul b = b.mul a := by
  unfold mul
  rw [bne_comm, Nat.mul_comm, Int.add_comm]

end DecimalSheet.Decimal
