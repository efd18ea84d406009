import DecimalSheet.Proofs.Decimal.Rational

/-!
# Correctly rounded division

With places after the point, a quotient is the multiple of the last place nearest to the exact
quotient, in the shortest form that such a number has. The number and the form together leave no
choice, so the quotient is the same for all forms of the dividend and the divisor.

## Main definitions

* `IsNearestMultiple places x n`: `n` units of the last place are nearest to `x`
* `Decimal.IsNormal places d`: the shortest form of a number with so many places

## Main results

* `IsNearestMultiple.eq`: only one multiple is nearest
* `Decimal.IsNormal.eq`: a number has one shortest form
* `Decimal.divide_rounds_to_normal_form`: division for all dividends, divisors and places
-/

namespace DecimalSheet

variable {places : Nat} {x : ℚ} {m n : ℤ}

/-! ## Nearest multiples -/

/-- Among the multiples of `10 ^ -places` it is `n` units that are nearest to a rational number.
Where another multiple is as near, `n` is even. -/
structure IsNearestMultiple (places : Nat) (x : ℚ) (n : ℤ) : Prop where
  near : ∀ m : ℤ, |x - n / 10 ^ places| ≤ |x - m / 10 ^ places|
  even : ∀ m : ℤ, m ≠ n → |x - m / 10 ^ places| = |x - n / 10 ^ places| → Even n

theorem abs_sub_div_pow (places : Nat) (x : ℚ) (n : ℤ) :
    |x - n / 10 ^ places| = |x * 10 ^ places - n| / 10 ^ places := by
  have hpos : (0 : ℚ) < 10 ^ places := by positivity
  rw [← abs_of_pos hpos, ← abs_div, sub_div, abs_of_pos hpos, mul_div_cancel_right₀ _ hpos.ne']

/-- Two different whole numbers are at least one apart, so they are not both less than half from a
rational number. -/
theorem one_le_abs_sub_add_abs_sub (x : ℚ) (h : m ≠ n) : 1 ≤ |x - m| + |x - n| := by
  have hgap : (1 : ℚ) ≤ |(m : ℚ) - n| := by
    exact_mod_cast Int.one_le_abs (sub_ne_zero.2 h)
  have htriangle := abs_sub_le (m : ℚ) x n
  rw [abs_sub_comm (m : ℚ) x] at htriangle
  linarith

/-- Rounding to a multiple is rounding to a whole number of units. -/
theorem isNearestMultiple_iff :
    IsNearestMultiple places x n ↔ IsNearestEven (x * 10 ^ places) n := by
  have hpos : (0 : ℚ) < 10 ^ places := by positivity
  constructor
  · rintro ⟨hnear, heven⟩
    simp only [abs_sub_div_pow, div_le_div_iff_of_pos_right hpos, div_left_inj' hpos.ne'] at *
    have hle := (hnear (roundEven (x * 10 ^ places))).trans (isNearestEven_roundEven _).near
    refine ⟨hle, fun hhalf => ?_⟩
    -- The neighbour on the other side is as near.
    rcases (abs_eq (by norm_num)).1 hhalf with h | h
    · refine heven (n + 1) (by omega) ?_
      rw [hhalf, Int.cast_add, Int.cast_one, ← sub_sub, h]
      norm_num
    · refine heven (n - 1) (by omega) ?_
      rw [hhalf, Int.cast_sub, Int.cast_one, ← sub_add, h]
      norm_num
  · rintro ⟨hnear, heven⟩
    refine ⟨fun m => ?_, fun m hne => ?_⟩ <;>
      simp only [abs_sub_div_pow, div_le_div_iff_of_pos_right hpos, div_left_inj' hpos.ne']
    · rcases eq_or_ne m n with rfl | hne
      · exact le_rfl
      · linarith [one_le_abs_sub_add_abs_sub (x * 10 ^ places) hne]
    · intro hsame
      have := one_le_abs_sub_add_abs_sub (x * 10 ^ places) hne
      exact heven (le_antisymm hnear (by linarith))

theorem isNearestMultiple_roundEven (places : Nat) (x : ℚ) :
    IsNearestMultiple places x (roundEven (x * 10 ^ places)) :=
  isNearestMultiple_iff.2 (isNearestEven_roundEven _)

/-- Only one multiple is nearest. -/
theorem IsNearestMultiple.eq (hm : IsNearestMultiple places x m)
    (hn : IsNearestMultiple places x n) : m = n :=
  (isNearestMultiple_iff.1 hm).eq (isNearestMultiple_iff.1 hn)

/-- A number with no more than the places is rounded to itself. -/
theorem roundTo_of_mul_pow (h : x * 10 ^ places = n) : roundTo places x = x := by
  have hexact : IsNearestEven (x * 10 ^ places) n := by
    rw [h]
    refine ⟨?_, fun hhalf => ?_⟩
    · norm_num
    · norm_num at hhalf
  rw [roundTo, (isNearestEven_roundEven _).eq hexact, ← h,
    mul_div_cancel_right₀ _ (by positivity)]

namespace Decimal

variable {a a' b b' d d' : Decimal}

/-! ## The shortest form -/

/-- The shortest form of a number with so many places after the point: no zero stands at the end of
the places, and zero has neither a sign nor places. -/
structure IsNormal (places : Nat) (d : Decimal) : Prop where
  neg_places_le : -(places : ℤ) ≤ d.exponent
  exponent_le : d.exponent ≤ 0
  last : d.exponent < 0 → d.coefficient % 10 ≠ 0
  zero : d.IsZero → d = zero

theorem dropZeros_places_le (coefficient places : Nat) :
    (dropZeros coefficient places).2 ≤ places := by
  fun_induction dropZeros coefficient places with
  | case1 => exact le_rfl
  | case2 _ _ _ ih => exact ih.trans (Nat.le_succ _)
  | case3 => exact le_rfl

theorem dropZeros_last (coefficient places : Nat) (h : 0 < (dropZeros coefficient places).2) :
    (dropZeros coefficient places).1 % 10 ≠ 0 := by
  fun_induction dropZeros coefficient places with
  | case1 => exact absurd h (Nat.lt_irrefl _)
  | case2 _ _ _ ih => exact ih h
  | case3 _ _ hlast => exact hlast

theorem isNormal_quotient (a b : Decimal) (places : Nat) :
    (quotient a b places).IsNormal places := by
  generalize hf : quotientAt a b places = f
  have hplaces := dropZeros_places_le (roundHalfEven f.1 f.2) places
  have hlast := dropZeros_last (roundHalfEven f.1 f.2) places
  simp only [quotient, hf]
  generalize dropZeros (roundHalfEven f.1 f.2) places = c at hplaces hlast
  refine ⟨?_, ?_, fun h => ?_, fun (h : c.1 = 0) => ?_⟩
  · show -(places : ℤ) ≤ -(c.2 : ℤ)
    omega
  · show -(c.2 : ℤ) ≤ 0
    omega
  · have : -(c.2 : ℤ) < 0 := h
    exact hlast (by omega)
  · have hnone : c.2 = 0 := by
      by_contra hsome
      exact hlast (Nat.pos_of_ne_zero hsome) (by rw [h])
    simp [h, hnone, Decimal.zero, ofNat]

theorem natAbs_signed (d : Decimal) : d.signed.natAbs = d.coefficient := by
  unfold signed
  split <;> omega

theorem negative_iff_signed (hne : ¬d.IsZero) : d.negative = true ↔ d.signed < 0 := by
  have hpos : 0 < d.coefficient := Nat.pos_of_ne_zero hne
  unfold signed
  split
  · simp [*]
  · simp [*]

/-- A number other than zero is given by its signed coefficient and its exponent. -/
theorem eq_of_signed_eq (hne : ¬d.IsZero) (hsigned : d.signed = d'.signed)
    (hexponent : d.exponent = d'.exponent) : d = d' := by
  have hcoefficient : d.coefficient = d'.coefficient := by
    rw [← natAbs_signed d, hsigned, natAbs_signed]
  have hne' : ¬d'.IsZero := fun h => hne (hcoefficient.trans h)
  have hsign : d.negative = d'.negative := by
    rw [Bool.eq_iff_iff, negative_iff_signed hne, negative_iff_signed hne', hsigned]
  cases d
  cases d'
  simp_all only

/-- The shorter of two forms of one number does not end in a place. -/
theorem IsNormal.eq_of_le (h : d.IsNormal places) (h' : d'.IsNormal places)
    (hle : d.exponent ≤ d'.exponent) (hvalue : d.toRat = d'.toRat) : d = d' := by
  by_cases hzero : d.IsZero
  · have hzero' : d'.IsZero := isZero_iff_toRat.2 (hvalue ▸ isZero_iff_toRat.1 hzero)
    rw [h.zero hzero, h'.zero hzero']
  · -- In units of the smaller exponent both are the same whole number.
    have hunits : d.signed = d'.signed * Nat.pow 10 (d'.exponent - d.exponent).toNat := by
      have hsame := sameValue_iff_toRat.2 hvalue
      simpa [SameValue, commonExponent, min_eq_left hle, unitsAt] using hsame
    rcases hle.eq_or_lt with heq | hlt
    · have hsigned : d.signed = d'.signed := by
        simpa [heq] using hunits
      exact eq_of_signed_eq hzero hsigned heq
    · -- A larger exponent would leave a zero at the end of the places.
      have hdvd : 10 ∣ d.coefficient := by
        have hpower : 10 ∣ Nat.pow 10 (d'.exponent - d.exponent).toNat :=
          dvd_pow_self 10 (by omega)
        rw [← natAbs_signed d, hunits, Int.natAbs_mul, Int.natAbs_natCast]
        exact Dvd.dvd.mul_left hpower _
      exact absurd (Nat.mod_eq_zero_of_dvd hdvd) (h.last (hlt.trans_le h'.exponent_le))

/-- A number has one shortest form. -/
theorem IsNormal.eq (h : d.IsNormal places) (h' : d'.IsNormal places)
    (hvalue : d.toRat = d'.toRat) : d = d' := by
  rcases le_total d.exponent d'.exponent with hle | hle
  · exact h.eq_of_le h' hle hvalue
  · exact (h'.eq_of_le h hle hvalue.symm).symm

/-! ## Quotients -/

/-- A quotient depends on the numbers alone and not on their forms. -/
theorem divide_congr (ha : a'.toRat = a.toRat) (hb : b'.toRat = b.toRat) (places : Nat) :
    divide a' b' places = divide a b places := by
  have hiff : b'.IsZero ↔ b.IsZero := by
    rw [isZero_iff_toRat, isZero_iff_toRat, hb]
  by_cases hzero : b.IsZero
  · rw [divide_eq_zeroDivisor_iff.2 hzero, divide_eq_zeroDivisor_iff.2 (hiff.2 hzero)]
  · rw [divide_natCast hzero, divide_natCast (mt hiff.1 hzero)]
    refine congrArg Except.ok ((isNormal_quotient _ _ _).eq (isNormal_quotient _ _ _) ?_)
    rw [toRat_quotient hzero, toRat_quotient (mt hiff.1 hzero), ha, hb]

/-- Division by zero is refused, in whatever form the zero is. Any other quotient is the multiple of
the last place nearest to the exact one, of two the even one, and so the exact one if that has no
more than the places. It is in the shortest form, and it does not depend on the forms of the
dividend and the divisor. -/
theorem divide_rounds_to_normal_form (a b : Decimal) (places : Nat) :
    (divide a b places = .error .zeroDivisor ↔ b.toRat = 0) ∧
    (b.toRat ≠ 0 → ∃ q, divide a b places = .ok q ∧
      (∃ n : ℤ, IsNearestMultiple places (a.toRat / b.toRat) n ∧
        (∀ m : ℤ, IsNearestMultiple places (a.toRat / b.toRat) m → m = n) ∧
        q.toRat = n / 10 ^ places) ∧
      (∀ n : ℤ, a.toRat / b.toRat = n / 10 ^ places → q.toRat = a.toRat / b.toRat) ∧
      q.IsNormal places) ∧
    ∀ a' b' : Decimal, a'.toRat = a.toRat → b'.toRat = b.toRat →
      divide a' b' places = divide a b places := by
  refine ⟨divide_eq_zeroDivisor_iff.trans isZero_iff_toRat, fun hb => ?_,
    fun a' b' ha hb => divide_congr ha hb places⟩
  have hzero : ¬b.IsZero := mt isZero_iff_toRat.1 hb
  have hnearest := isNearestMultiple_roundEven places (a.toRat / b.toRat)
  refine ⟨quotient a b places, divide_natCast hzero,
    ⟨_, hnearest, fun m h => h.eq hnearest, toRat_quotient hzero places⟩, fun n h => ?_,
    isNormal_quotient a b places⟩
  have hunits : a.toRat / b.toRat * 10 ^ places = n := by
    rw [h, div_mul_cancel₀ _ (by positivity)]
  rw [toRat_quotient hzero, roundTo_of_mul_pow hunits]

/-- Half a unit goes to the even neighbour: `-1.0 / 8` is `-0.12` in two places. -/
theorem divide_rounds_to_normal_form_eighth :
    toRat ⟨false, 8, 0⟩ ≠ 0 ∧
    divide ⟨true, 10, -1⟩ ⟨false, 8, 0⟩ 2 = .ok ⟨true, 12, -2⟩ ∧
    IsNormal 2 ⟨true, 12, -2⟩ := by
  have hb : toRat ⟨false, 8, 0⟩ ≠ 0 := by norm_num [toRat, signed]
  obtain ⟨q, hq, -, -, hnormal⟩ :=
    (divide_rounds_to_normal_form ⟨true, 10, -1⟩ ⟨false, 8, 0⟩ 2).2.1 hb
  have hquotient : divide ⟨true, 10, -1⟩ ⟨false, 8, 0⟩ 2 = .ok ⟨true, 12, -2⟩ := by decide
  rw [show ((2 : Nat) : ℤ) = 2 from rfl, hquotient] at hq
  cases hq
  exact ⟨hb, hquotient, hnormal⟩

end Decimal

end DecimalSheet
