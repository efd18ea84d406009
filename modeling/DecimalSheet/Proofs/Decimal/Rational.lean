import DecimalSheet.Function.Aggregate
import Mathlib

/-!
# Decimal numbers as rational numbers

A decimal number stands for a rational number, which does not tell its form. The operations of
decimal numbers are those of rational numbers: sums, differences, products and negations are exact,
the comparisons are those of rational numbers, and quotients are rounded exactly once, half to even.

## Main definitions

* `Decimal.toRat d`: the rational number for which a decimal number stands
* `IsNearestEven x n`, `roundEven x`: rounding to whole numbers
* `roundTo places x`: rounding to places after the point

## Main results

* `Decimal.toRat_add`, `Decimal.toRat_sub`, `Decimal.toRat_mul`, `Decimal.toRat_neg`: the exact
  operations
* `Decimal.lt_iff_toRat`, `Decimal.sameValue_iff_toRat`: the comparisons
* `Decimal.toRat_quotient`: the rounded quotient
* `IsNearestEven.eq`: only one whole number is nearest
-/

namespace DecimalSheet

namespace Decimal

variable {a b d : Decimal} {e : Int}

/-- The rational number for which a decimal number stands. -/
def toRat (d : Decimal) : ℚ := d.signed * (10 : ℚ) ^ d.exponent

theorem natPow_ten (k : Nat) : ((Nat.pow 10 k : Nat) : ℚ) = 10 ^ k := by
  rw [Nat.pow_eq]
  norm_cast

/-- The number in units of a power of ten that divides it. -/
theorem toRat_eq_unitsAt (h : e ≤ d.exponent) : d.toRat = d.unitsAt e * (10 : ℚ) ^ e := by
  have hpower : (10 : ℚ) ^ d.exponent = 10 ^ (d.exponent - e).toNat * 10 ^ e := by
    rw [← zpow_natCast, ← zpow_add₀ (by norm_num)]
    congr 1
    omega
  rw [toRat, unitsAt, hpower, Int.cast_mul, Int.cast_natCast, natPow_ten, mul_assoc]

theorem commonExponent_le_left (a b : Decimal) : commonExponent a b ≤ a.exponent :=
  Int.min_le_left ..

theorem commonExponent_le_right (a b : Decimal) : commonExponent a b ≤ b.exponent :=
  Int.min_le_right ..

/-! ## Exact operations -/

theorem signed_ofUnits (units e : Int) (zeroNegative : Bool) :
    (ofUnits units e zeroNegative).signed = units := by
  by_cases h : units = 0
  · simp [ofUnits, signed, h]
  · simp only [ofUnits, signed, if_neg h, decide_eq_true_eq]
    split <;> omega

theorem toRat_ofUnits (units e : Int) (zeroNegative : Bool) :
    (ofUnits units e zeroNegative).toRat = units * (10 : ℚ) ^ e := by
  rw [toRat, signed_ofUnits]
  rfl

@[simp] theorem toRat_ofNat (n : Nat) : (ofNat n).toRat = n := by
  simp [toRat, ofNat, signed]

@[simp] theorem toRat_zero : zero.toRat = 0 := by simp [zero]

@[simp] theorem toRat_one : one.toRat = 1 := by simp [one]

@[simp] theorem toRat_add (a b : Decimal) : (a.add b).toRat = a.toRat + b.toRat := by
  rw [add, toRat_ofUnits, toRat_eq_unitsAt (commonExponent_le_left a b),
    toRat_eq_unitsAt (commonExponent_le_right a b), Int.cast_add, add_mul]

theorem signed_flipSign (a : Decimal) : a.flipSign.signed = -a.signed := by
  cases h : a.negative <;> simp [flipSign, signed, h]

@[simp] theorem toRat_sub (a b : Decimal) : (a.sub b).toRat = a.toRat - b.toRat := by
  have hflip : b.flipSign.toRat = -b.toRat := by
    rw [toRat, signed_flipSign, Int.cast_neg, neg_mul]
    rfl
  rw [sub, toRat_add, hflip, sub_eq_add_neg]

theorem signed_neg (a : Decimal) : a.neg.signed = -a.signed := by
  by_cases h : a.coefficient = 0 <;> cases hn : a.negative <;> simp [neg, signed, h, hn]

@[simp] theorem toRat_neg (a : Decimal) : a.neg.toRat = -a.toRat := by
  rw [toRat, signed_neg, Int.cast_neg, neg_mul]
  rfl

theorem signed_mul (a b : Decimal) : (a.mul b).signed = a.signed * b.signed := by
  cases ha : a.negative <;> cases hb : b.negative <;> simp [mul, signed, ha, hb]

@[simp] theorem toRat_mul (a b : Decimal) : (a.mul b).toRat = a.toRat * b.toRat := by
  rw [toRat, signed_mul, exponent_mul, zpow_add₀ (by norm_num), Int.cast_mul, toRat, toRat]
  ring

/-! ## Comparisons -/

theorem isZero_iff_toRat : d.IsZero ↔ d.toRat = 0 := by
  have hpower : (10 : ℚ) ^ d.exponent ≠ 0 := by positivity
  rw [toRat, mul_eq_zero, or_iff_left hpower, Int.cast_eq_zero]
  unfold IsZero signed
  split <;> omega

/-- Two numbers compare as their units at a common exponent. -/
theorem toRat_lt_toRat_iff : a.toRat < b.toRat ↔
    a.unitsAt (commonExponent a b) < b.unitsAt (commonExponent a b) := by
  rw [toRat_eq_unitsAt (commonExponent_le_left a b), toRat_eq_unitsAt (commonExponent_le_right a b),
    mul_lt_mul_iff_left₀ (by positivity), Int.cast_lt]

theorem lt_iff_toRat : a.Lt b ↔ a.toRat < b.toRat := toRat_lt_toRat_iff.symm

theorem sameValue_iff_toRat : a.SameValue b ↔ a.toRat = b.toRat := by
  have hpower : (10 : ℚ) ^ commonExponent a b ≠ 0 := by positivity
  rw [toRat_eq_unitsAt (commonExponent_le_left a b), toRat_eq_unitsAt (commonExponent_le_right a b),
    mul_left_inj' hpower, Int.cast_inj]
  rfl

end Decimal

/-! ## Rounding -/

/-- The whole number is nearest to the rational number. Of two that are equally near it is the even
one. -/
structure IsNearestEven (x : ℚ) (n : ℤ) : Prop where
  near : |x - n| ≤ 1 / 2
  even : |x - n| = 1 / 2 → Even n

/-- The whole number nearest to a rational number, of two that are equally near the even one. -/
def roundEven (x : ℚ) : ℤ :=
  if 2 * Int.fract x < 1 ∨ 2 * Int.fract x = 1 ∧ Even ⌊x⌋ then ⌊x⌋ else ⌊x⌋ + 1

/-- The number with so many places after the point that is nearest to a rational number. -/
def roundTo (places : Nat) (x : ℚ) : ℚ := roundEven (x * 10 ^ places) / 10 ^ places

theorem isNearestEven_roundEven (x : ℚ) : IsNearestEven x (roundEven x) := by
  have hnonneg := Int.fract_nonneg x
  have hlt := Int.fract_lt_one x
  have hbelow : x - ⌊x⌋ = Int.fract x := rfl
  unfold roundEven
  split
  · -- rounded down
    rename_i h
    refine ⟨?_, fun hhalf => ?_⟩
    · rw [hbelow, abs_of_nonneg hnonneg]
      rcases h with h | ⟨h, -⟩ <;> linarith
    · rw [hbelow, abs_of_nonneg hnonneg] at hhalf
      exact (h.resolve_left (by linarith)).2
  · -- rounded up
    rename_i h
    rw [not_or, not_and] at h
    obtain ⟨hge, hodd⟩ := h
    have habove : |x - ((⌊x⌋ + 1 : ℤ) : ℚ)| = 1 - Int.fract x := by
      rw [Int.cast_add, Int.cast_one, ← sub_sub, hbelow, abs_sub_comm, abs_of_pos (by linarith)]
    refine ⟨by rw [habove]; linarith, fun hhalf => ?_⟩
    rw [habove] at hhalf
    exact Int.even_add_one.2 (hodd (by linarith))

/-- Only one whole number is nearest. -/
theorem IsNearestEven.eq {x : ℚ} {m n : ℤ} (hm : IsNearestEven x m) (hn : IsNearestEven x n) :
    m = n := by
  -- The lesser of two different numbers would be one below the other, and both would be even.
  have hle : ∀ {m n : ℤ}, IsNearestEven x m → IsNearestEven x n → n ≤ m := by
    intro m n hm hn
    by_contra hlt
    have hnear := abs_le.1 hm.near
    have hnear' := abs_le.1 hn.near
    have hnext : n = m + 1 := by
      have : (n : ℚ) ≤ m + 1 := by linarith
      have : n ≤ m + 1 := by exact_mod_cast this
      omega
    have hx : x = m + 1 / 2 := by
      subst hnext
      push_cast at hnear'
      linarith
    have heven : Even m := hm.even (by rw [hx]; norm_num)
    have heven' : Even n := by
      refine hn.even ?_
      rw [hx, hnext]
      push_cast
      norm_num
    rw [hnext, Int.even_add_one] at heven'
    exact heven' heven
  exact le_antisymm (hle hn hm) (hle hm hn)

theorem IsNearestEven.neg {x : ℚ} {n : ℤ} (h : IsNearestEven x n) : IsNearestEven (-x) (-n) := by
  have habs : |-x - ((-n : ℤ) : ℚ)| = |x - n| := by
    rw [Int.cast_neg, ← neg_sub', abs_neg]
  exact ⟨habs ▸ h.near, fun hhalf => (h.even (habs ▸ hhalf)).neg⟩

theorem roundEven_neg (x : ℚ) : roundEven (-x) = -roundEven x :=
  (isNearestEven_roundEven (-x)).eq (isNearestEven_roundEven x).neg

/-- The quotient of natural numbers is rounded as that of rational numbers. -/
theorem roundHalfEven_eq {n d : Nat} (hd : 0 < d) :
    (roundHalfEven n d : ℤ) = roundEven (n / d : ℚ) := by
  have hpos : (0 : ℚ) < d := by exact_mod_cast hd
  have hbelow : 2 * (((n % d : Nat) : ℚ) / d) < 1 ↔ 2 * (n % d) < d := by
    rw [← mul_div_assoc, div_lt_one hpos]
    norm_cast
  have hhalf : 2 * (((n % d : Nat) : ℚ) / d) = 1 ↔ 2 * (n % d) = d := by
    rw [← mul_div_assoc, div_eq_one_iff_eq hpos.ne']
    norm_cast
  have heven : Even ((n : ℤ) / (d : ℤ)) ↔ n / d % 2 = 0 := by
    rw [← Int.natCast_div, Int.even_coe_nat, Nat.even_iff]
  simp only [roundHalfEven, roundEven, Int.fract_div_natCast_eq_div_natCast_mod,
    Rat.floor_natCast_div_natCast, hbelow, hhalf, heven]
  split <;> push_cast <;> rfl

namespace Decimal

variable {a b : Decimal}

/-! ## Quotients -/

/-- Zeros at the end of the places do not count. -/
theorem dropZeros_value (coefficient places : Nat) :
    ((dropZeros coefficient places).1 : ℚ) / 10 ^ (dropZeros coefficient places).2 =
      coefficient / 10 ^ places := by
  induction places generalizing coefficient with
  | zero => rfl
  | succ places ih =>
    rw [dropZeros]
    split
    · rename_i h
      have hten : (coefficient : ℚ) = 10 * (coefficient / 10 : Nat) := by
        exact_mod_cast (Nat.mul_div_cancel' (Nat.dvd_of_mod_eq_zero h)).symm
      rw [ih, hten, pow_succ', mul_div_mul_left _ _ (by norm_num)]
    · rfl

/-- The sign of a quotient. -/
def quotientSign (a b : Decimal) : ℤ := if a.negative != b.negative then -1 else 1

theorem roundEven_quotientSign_mul (a b : Decimal) (x : ℚ) :
    roundEven (quotientSign a b * x) = quotientSign a b * roundEven x := by
  unfold quotientSign
  split <;> simp [roundEven_neg]

theorem toRat_div_toRat (a b : Decimal) : a.toRat / b.toRat =
    quotientSign a b * (a.coefficient / b.coefficient * (10 : ℚ) ^ (a.exponent - b.exponent)) := by
  have hsigned : (a.signed / b.signed : ℚ) =
      quotientSign a b * (a.coefficient / b.coefficient) := by
    cases ha : a.negative <;> cases hb : b.negative <;>
      simp [signed, quotientSign, ha, hb, neg_div, div_neg]
  rw [toRat, toRat, mul_div_mul_comm, hsigned, zpow_sub₀ (by norm_num), mul_assoc]

/-- The fraction from which a quotient is rounded. -/
theorem quotientAt_value (a b : Decimal) (k : Int) :
    ((quotientAt a b k).1 / (quotientAt a b k).2 : ℚ) =
      a.coefficient / b.coefficient * (10 : ℚ) ^ (a.exponent - b.exponent + k) := by
  simp only [quotientAt, Nat.cast_mul, natPow_ten]
  rw [mul_div_mul_comm, ← zpow_natCast, ← zpow_natCast, ← zpow_sub₀ (by norm_num),
    Int.toNat_sub_toNat_neg]

theorem toRat_of_places (coefficient places : Nat) (a b : Decimal) :
    toRat ⟨(a.negative != b.negative) && coefficient != 0, coefficient, -(places : Int)⟩ =
      quotientSign a b * (coefficient / 10 ^ places) := by
  have hsigned : signed ⟨(a.negative != b.negative) && coefficient != 0, coefficient,
      -(places : Int)⟩ = quotientSign a b * coefficient := by
    unfold signed quotientSign
    by_cases h : coefficient = 0 <;> simp [h]
  rw [toRat, hsigned, zpow_neg, zpow_natCast, Int.cast_mul, Int.cast_natCast, mul_assoc,
    div_eq_mul_inv]

/-- The quotient is that of the rational numbers, rounded once. -/
theorem toRat_quotient (hb : ¬b.IsZero) (places : Nat) :
    (quotient a b places).toRat = roundTo places (a.toRat / b.toRat) := by
  have hpos : 0 < (quotientAt a b places).2 :=
    Nat.mul_pos (Nat.pos_of_ne_zero hb) (Nat.pow_pos (by decide))
  -- Both sides have the same sign and round the same fraction.
  have hfraction : a.toRat / b.toRat * 10 ^ places =
      quotientSign a b * ((quotientAt a b places).1 / (quotientAt a b places).2) := by
    rw [toRat_div_toRat, quotientAt_value, zpow_add₀ (by norm_num), zpow_natCast]
    ring
  rw [roundTo, hfraction, roundEven_quotientSign_mul, ← roundHalfEven_eq hpos]
  show toRat ⟨(a.negative != b.negative) && _ != 0, _, _⟩ = _
  rw [toRat_of_places, dropZeros_value]
  push_cast
  ring

end Decimal

end DecimalSheet
