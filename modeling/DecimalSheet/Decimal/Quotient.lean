import DecimalSheet.Decimal.Basic

/-!
# Rounded quotients

The quotient of two decimal numbers, rounded to a number of places after the point. Half a unit
goes to the even neighbour, and zeros at the end of the places are dropped, so a quotient that
fits is exact and has the shortest form.

A negative number of places asks for a multiple of a power of ten. Such a quotient is computed in
numbers of 53 significant bits, each step rounded on its own, and there is none if the exact
quotient is too large for these numbers.

## Main definitions

* `roundHalfEven n d`: the whole number nearest to `n / d`
* `nearestBinary n d`: the number of 53 significant bits nearest to `n / d`
* `QuotientError`: why two numbers have no quotient
* `Decimal.divide a b scale`: the rounded quotient, or why there is none

## Main results

* `Decimal.divide_eq_zeroDivisor_iff`: it is the divisor zero, and nothing else, that is refused as
  a divisor
* `Decimal.divide_natCast`: with places after the point every other quotient can be rounded
-/

namespace DecimalSheet

/-- The whole number nearest to `n / d`. Of two that are equally near it is the even one. -/
def roundHalfEven (n d : Nat) : Nat :=
  let q := n / d
  let r := n % d
  if 2 * r < d ∨ 2 * r = d ∧ q % 2 = 0 then q else q + 1

/-! ## Rounding to 53 bits -/

/-- The fraction `n / (d · 2 ^ e)`. -/
def scaleBinary (n d : Nat) (e : Int) : Nat × Nat :=
  (n * Nat.pow 2 (-e).toNat, d * Nat.pow 2 e.toNat)

/-- The number nearest to `n / d` among the multiples `m · 2 ^ e` with `m ≤ 2 ^ 53` and
`-1074 ≤ e`, as a fraction. Of two that are equally near it is the one with the even `m`. -/
def nearestBinary (n d : Nat) : Nat × Nat :=
  if n = 0 then (0, 1)
  else
    -- The quotient has 53 bits in units of `2 ^ low` or of the next power.
    let low : Int := (n.log2 : Int) - d.log2 - 53
    let below := scaleBinary n d low
    let e := max (if below.1 < below.2 * Nat.pow 2 53 then low else low + 1) (-1074)
    let f := scaleBinary n d e
    (roundHalfEven f.1 f.2 * Nat.pow 2 e.toNat, Nat.pow 2 (-e).toNat)

/-- The fraction is too large for a number of 53 significant bits: these numbers end below
`2 ^ 1024`. -/
def ExceedsBinary (f : Nat × Nat) : Prop := Nat.pow 2 1024 * f.2 ≤ f.1

instance (f : Nat × Nat) : Decidable (ExceedsBinary f) := inferInstanceAs (Decidable (_ ≤ _))

/-- The number of 53 significant bits nearest to `10 ^ -k`, as a fraction. From `10 ^ -324` on it is
zero, since the least such number above zero is `2 ^ -1074`. -/
def inversePower (k : Nat) : Nat × Nat :=
  if k < 324 then nearestBinary 1 (Nat.pow 10 k) else (0, 1)

/-- Why two numbers have no quotient. -/
inductive QuotientError where
  | zeroDivisor
  /-- The quotient is too large for the numbers in which it is to be computed. -/
  | tooLarge
deriving DecidableEq

namespace Decimal

/-! ## Quotients -/

/-- The size of `a / b · 10 ^ k` as a fraction. -/
def quotientAt (a b : Decimal) (k : Int) : Nat × Nat :=
  let s := a.exponent - b.exponent + k
  (a.coefficient * Nat.pow 10 s.toNat, b.coefficient * Nat.pow 10 (-s).toNat)

/-- Drops zeros from the end of a coefficient, at most as many as it has places after the point,
and returns the places that are left. -/
def dropZeros (coefficient : Nat) : Nat → Nat × Nat
  | 0 => (coefficient, 0)
  | places + 1 =>
    if coefficient % 10 = 0 then dropZeros (coefficient / 10) places
    else (coefficient, places + 1)

/-- The quotient rounded to `scale` places. -/
def quotient (a b : Decimal) (scale : Nat) : Decimal :=
  let f := quotientAt a b scale
  let c := dropZeros (roundHalfEven f.1 f.2) scale
  ⟨(a.negative != b.negative) && c.1 != 0, c.1, -(c.2 : Int)⟩

/-- The whole number nearest to the quotient in units of `10 ^ k`, in steps of 53 significant
bits, from the quotient rounded to such a number. -/
def coarseUnits (q : Nat × Nat) (k : Nat) : Nat :=
  -- This is not the quotient by `10 ^ k`, since the inverse of the power is rounded first.
  let p := inversePower k
  let r := nearestBinary (q.1 * p.1) (q.2 * p.2)
  roundHalfEven r.1 r.2

/-- The quotient rounded to a multiple of `10 ^ k`, in steps of 53 significant bits. -/
def coarseQuotient (a b : Decimal) (k : Nat) : Except QuotientError Decimal :=
  let f := quotientAt a b 0
  let q := nearestBinary f.1 f.2
  if ExceedsBinary q then .error .tooLarge
  else
    match coarseUnits q k with
    | 0 => .ok zero
    | units => .ok ⟨a.negative != b.negative, units * Nat.pow 10 k, 0⟩

/-- The quotient rounded to `scale` places, or why there is none. -/
def divide (a b : Decimal) (scale : Int) : Except QuotientError Decimal :=
  if b.IsZero then .error .zeroDivisor
  else
    match scale with
    | .ofNat places => .ok (quotient a b places)
    | .negSucc k => coarseQuotient a b (k + 1)

theorem coarseQuotient_ne_zeroDivisor {a b : Decimal} {k : Nat} :
    coarseQuotient a b k ≠ .error .zeroDivisor := by
  unfold coarseQuotient
  grind

theorem divide_eq_zeroDivisor_iff {a b : Decimal} {scale : Int} :
    divide a b scale = .error .zeroDivisor ↔ b.IsZero := by
  unfold divide
  split
  · simp [*]
  · cases scale <;> simp [*, coarseQuotient_ne_zeroDivisor]

/-- With places after the point every quotient by a number other than zero can be rounded. -/
theorem divide_natCast {a b : Decimal} {places : Nat} (h : ¬b.IsZero) :
    divide a b places = .ok (quotient a b places) := by
  unfold divide
  rw [if_neg h]

end Decimal

end DecimalSheet
