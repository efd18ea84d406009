import DecimalSheet.Proofs.Decimal.Rational
import DecimalSheet.Proofs.Function.Lookup

/-!
# Functions of rational numbers

The standard functions are functions of rational numbers: what they make of decimal numbers depends
only on the rational numbers for which these stand, not on their forms. Sums, products and numbers
of members are exact, so are least and greatest members, and a mean is rounded once.

## Main definitions

* `standardOn name xs`: what the standard function with a name makes of rational numbers
* `Reducer.Computes f g`: the reducer is the function `g` of rational numbers

## Main results

* `Registry.computes_standard`: the standard functions as functions of rational numbers
-/

namespace DecimalSheet

/-- What the standard function with a name, which is in lower case, makes of rational numbers. -/
def standardOn (name : String) (xs : List ℚ) : Except Raised ℚ :=
  match name with
  | "sum" => .ok xs.sum
  | "product" => .ok xs.prod
  | "count" => .ok xs.length
  | "min" => xs.min?.elim (.error (.fault (.noValues "MIN"))) .ok
  | "max" => xs.max?.elim (.error (.fault (.noValues "MAX"))) .ok
  | "average" =>
    if xs = [] then .error (.fault (.noValues "AVERAGE"))
    else .ok (roundTo 28 (xs.sum / xs.length))
  | _ => .error (.fault (.unknownFunction (Text.upper name)))

namespace Aggregate

open Decimal (toRat)

theorem toRat_sum (vs : List Decimal) : (sum vs).toRat = (vs.map toRat).sum := by
  rw [sum, List.sum_eq_foldl, List.foldl_map, ← Decimal.toRat_zero]
  exact (List.foldl_hom toRat fun a b => (Decimal.toRat_add a b).symm).symm

theorem toRat_product (vs : List Decimal) : (product vs).toRat = (vs.map toRat).prod := by
  rw [product, List.prod_eq_foldl, List.foldl_map, ← Decimal.toRat_one]
  exact (List.foldl_hom toRat fun a b => (Decimal.toRat_mul a b).symm).symm

theorem toRat_count (vs : List Decimal) : (count vs).toRat = vs.length :=
  Decimal.toRat_ofNat vs.length

theorem toRat_smaller (a b : Decimal) : (smaller a b).toRat = min a.toRat b.toRat := by
  unfold smaller
  split
  · rename_i h
    exact (min_eq_right (Decimal.lt_iff_toRat.1 h).le).symm
  · rename_i h
    exact (min_eq_left (not_lt.1 (mt Decimal.lt_iff_toRat.2 h))).symm

theorem toRat_larger (a b : Decimal) : (larger a b).toRat = max a.toRat b.toRat := by
  unfold larger
  split
  · rename_i h
    exact (max_eq_right (Decimal.lt_iff_toRat.1 h).le).symm
  · rename_i h
    exact (max_eq_left (not_lt.1 (mt Decimal.lt_iff_toRat.2 h))).symm

theorem map_least? (vs : List Decimal) : (least? vs).map toRat = (vs.map toRat).min? := by
  cases vs with
  | nil => rfl
  | cons v vs =>
    rw [least?, List.map_cons, List.min?_cons', List.foldl_map, Option.map_some]
    exact congrArg some (List.foldl_hom toRat fun a b => (toRat_smaller a b).symm).symm

theorem map_greatest? (vs : List Decimal) : (greatest? vs).map toRat = (vs.map toRat).max? := by
  cases vs with
  | nil => rfl
  | cons v vs =>
    rw [greatest?, List.map_cons, List.max?_cons', List.foldl_map, Option.map_some]
    exact congrArg some (List.foldl_hom toRat fun a b => (toRat_larger a b).symm).symm

/-- The mean of some numbers is rounded once. -/
theorem map_average? {vs : List Decimal} (h : vs ≠ []) :
    (average? vs).map toRat = some (roundTo 28 ((vs.map toRat).sum / vs.length)) := by
  have hcount : ¬(count vs).IsZero := mt isZero_count_iff.1 h
  rw [average?, show divisionScale = (28 : Nat) from rfl, Decimal.divide_natCast hcount]
  exact congrArg some (by rw [Decimal.toRat_quotient hcount, toRat_sum, toRat_count])

end Aggregate

namespace Reducer

variable {f : Reducer} {g : List ℚ → Except Raised ℚ} {vs ws : List Decimal}

/-- The reducer is a function of the rational numbers for which its arguments stand. -/
def Computes (f : Reducer) (g : List ℚ → Except Raised ℚ) : Prop :=
  ∀ vs, (f vs).map Decimal.toRat = g (vs.map Decimal.toRat)

theorem Computes.eq_of_ok {v : Decimal} (h : f.Computes g) (hv : f vs = .ok v) :
    g (vs.map Decimal.toRat) = .ok v.toRat := by
  rw [← h vs, hv]
  rfl

/-- A guarded reducer fails on no values, and so does the function. -/
theorem computes_guarded {name : String}
    (hnil : g [] = .error (.fault (.noValues (Text.upper name))))
    (h : ∀ vs, vs ≠ [] → (f vs).map Decimal.toRat = g (vs.map Decimal.toRat)) :
    (guarded name f).Computes g := by
  intro vs
  unfold guarded
  split
  · rename_i hvs
    rw [hvs, List.map_nil, hnil]
    rfl
  · rename_i hvs
    exact h vs hvs

/-- A reducer that fails where it finds nothing. -/
theorem map_elim {find : List Decimal → Option Decimal} (raised : Raised) {x : ℚ}
    (h : (find vs).map Decimal.toRat = some x) :
    Except.map Decimal.toRat ((find vs).elim (.error raised) .ok) = .ok x := by
  obtain ⟨v, hv, rfl⟩ := Option.map_eq_some_iff.1 h
  rw [hv]
  rfl

end Reducer

/-- The members of the standard functions are functions of rational numbers. -/
theorem Collection.computes_standard : ∀ m ∈ standard, ∀ f, m.2 = some f → ∀ mark,
    f.mark = some mark → (mark.apply f.run).Computes (standardOn mark.name) := by
  simp only [standard, List.forall_mem_cons, Option.some.injEq, forall_eq']
  refine ⟨?average, ?count, ?max, ?min, ?product, ?sum, List.forall_mem_nil _⟩
  case sum =>
    rintro mark ⟨⟩ vs
    exact congrArg Except.ok (Aggregate.toRat_sum vs)
  case product =>
    rintro mark ⟨⟩ vs
    exact congrArg Except.ok (Aggregate.toRat_product vs)
  case count =>
    rintro mark ⟨⟩ vs
    refine congrArg Except.ok ((Aggregate.toRat_count vs).trans ?_)
    rw [List.length_map]
  case max =>
    rintro mark ⟨⟩
    refine Reducer.computes_guarded (by cbv) fun vs hvs => ?_
    obtain ⟨v, vs, rfl⟩ := List.exists_cons_of_ne_nil hvs
    exact Reducer.map_elim (.abort .noMaximum) (Aggregate.map_greatest? (v :: vs))
  case min =>
    rintro mark ⟨⟩
    refine Reducer.computes_guarded (by cbv) fun vs hvs => ?_
    obtain ⟨v, vs, rfl⟩ := List.exists_cons_of_ne_nil hvs
    exact Reducer.map_elim (.abort .noMinimum) (Aggregate.map_least? (v :: vs))
  case average =>
    rintro mark ⟨⟩
    refine Reducer.computes_guarded (by cbv) fun vs hvs => ?_
    refine (Reducer.map_elim _ (Aggregate.map_average? hvs)).trans ?_
    rw [standardOn, if_neg (by simpa using hvs), List.length_map]

/-- The standard functions are functions of rational numbers. -/
theorem Registry.computes_standard :
    ∀ name f, standard.lookup name = .ok f → f.Computes (standardOn (Text.lower name)) :=
  forall_lookup_ofCollections (P := fun name f => f.Computes (standardOn name)) fun c hc => by
    obtain rfl := List.mem_singleton.1 hc
    exact Collection.computes_standard

end DecimalSheet
