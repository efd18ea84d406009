import DecimalSheet.Decimal.Arithmetic
import DecimalSheet.Decimal.Quotient

/-!
# Aggregates

Numbers that sum up a list of numbers: its sum, product, length, least and greatest member, and
its mean. The sum of no numbers is zero and their product is one; no numbers have no least, no
greatest member and no mean.

## Main definitions

* `Aggregate.sum`, `Aggregate.product`, `Aggregate.count`: defined on every list
* `Aggregate.least?`, `Aggregate.greatest?`, `Aggregate.average?`: defined on lists that are not
  empty

## Main results

* `Aggregate.sum_append_singleton`: a further number is added to the sum
* `Aggregate.average?_eq_none_iff`: only the empty list has no mean
-/

namespace DecimalSheet

/-- The places after the point to which a quotient is rounded where nothing else is asked for. -/
def divisionScale : Int := 28

namespace Aggregate

/-- The sum. -/
def sum (vs : List Decimal) : Decimal := vs.foldl Decimal.add Decimal.zero

/-- The product. -/
def product (vs : List Decimal) : Decimal := vs.foldl Decimal.mul Decimal.one

/-- The number of members. -/
def count (vs : List Decimal) : Decimal := Decimal.ofNat vs.length

/-- The smaller of two numbers, and the first of them if they are equal. -/
def smaller (a b : Decimal) : Decimal := if b.Lt a then b else a

/-- The larger of two numbers, and the first of them if they are equal. -/
def larger (a b : Decimal) : Decimal := if a.Lt b then b else a

/-- The first of the smallest members. -/
def least? : List Decimal → Option Decimal
  | [] => none
  | v :: vs => some (vs.foldl smaller v)

/-- The first of the largest members. -/
def greatest? : List Decimal → Option Decimal
  | [] => none
  | v :: vs => some (vs.foldl larger v)

/-- The mean, which is the sum divided by the number of members. -/
def average? (vs : List Decimal) : Option Decimal :=
  (Decimal.divide (sum vs) (count vs) divisionScale).toOption

theorem sum_append_singleton (vs : List Decimal) (v : Decimal) :
    sum (vs ++ [v]) = (sum vs).add v := by simp [sum]

theorem isZero_count_iff {vs : List Decimal} : (count vs).IsZero ↔ vs = [] :=
  List.length_eq_zero_iff

theorem average?_eq_none_iff {vs : List Decimal} : average? vs = none ↔ vs = [] := by
  rw [← isZero_count_iff]
  by_cases h : (count vs).IsZero
  · simp [average?, Decimal.divide, h, Except.toOption]
  · rw [average?, show divisionScale = (28 : Nat) from rfl, Decimal.divide_natCast h]
    simp [h, Except.toOption]

end Aggregate

end DecimalSheet
