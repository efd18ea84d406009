import DecimalSheet.Proofs.Decimal.Division
import DecimalSheet.Proofs.Function.Exact

/-!
# Aggregates of rearranged lists

Neither the order of the members nor the way in which they are grouped plays a part in a sum, in a
product or in a mean, down to the sign, the coefficient and the exponent of the result. A product is
a fold of an operation that is associative and commutative even for the forms of numbers. Addition
is so up to the sign of zero, and a sum never has that sign, since it starts from the zero without
one: its value and its exponent give the rest.

The least and the greatest member are members of the list, the first of those with this value, so
only their value is the same for a rearranged list.

## Main definitions

* `Decimal.HasPlainZero d`: the number is not the zero with a sign
* `Aggregate.exponents vs`: the exponents among which a sum takes the smallest
* `Aggregate.IsFirst R vs v`: the first member that is related to all members by `R`

## Main results

* `Decimal.eq_of_toRat_eq`: value and exponent give a number that is not the zero with a sign
* `Aggregate.sum_append`, `Aggregate.product_append`: joined lists
* `Aggregate.sum_perm`, `Aggregate.product_perm`: rearranged lists
* `Aggregate.isFirst_foldl`: a fold that keeps a member until a better one comes finds the first of
  the best
* `Aggregate.aggregates_of_perm`: all of this together
-/

namespace DecimalSheet

namespace Decimal

variable {a b c d d' : Decimal}

/-! ## Zeros without a sign -/

/-- The number is not the zero with a sign. -/
def HasPlainZero (d : Decimal) : Prop := d.IsZero → d.negative = false

/-- Value and exponent give a number that is not the zero with a sign. -/
theorem eq_of_toRat_eq (h : d.HasPlainZero) (h' : d'.HasPlainZero) (hvalue : d.toRat = d'.toRat)
    (hexponent : d.exponent = d'.exponent) : d = d' := by
  have hpower : (10 : ℚ) ^ d'.exponent ≠ 0 := by positivity
  by_cases hzero : d.IsZero
  · have hzero' : d'.IsZero := isZero_iff_toRat.2 (hvalue ▸ isZero_iff_toRat.1 hzero)
    have hnegative := h hzero
    have hnegative' := h' hzero'
    cases d
    cases d'
    simp_all [IsZero]
  · have hsigned : (d.signed : ℚ) = d'.signed := by
      rw [toRat, toRat, hexponent] at hvalue
      exact mul_right_cancel₀ hpower hvalue
    exact eq_of_signed_eq hzero (by exact_mod_cast hsigned) hexponent

theorem toRat_nonpos (h : d.negative = true) : d.toRat ≤ 0 := by
  have hsigned : d.signed ≤ 0 := by simp [signed, h]
  exact mul_nonpos_of_nonpos_of_nonneg (by exact_mod_cast hsigned) (by positivity)

theorem hasPlainZero_ofNat (n : Nat) : (ofNat n).HasPlainZero := fun _ => rfl

/-- The sum of two numbers is the zero with a sign only if both are. -/
theorem HasPlainZero.add (ha : a.HasPlainZero) (b : Decimal) : (a.add b).HasPlainZero := by
  intro hzero
  have hsum : a.toRat + b.toRat = 0 := by
    rw [← toRat_add]
    exact isZero_iff_toRat.1 hzero
  have hsign : (a.add b).negative = (a.negative && b.negative) :=
    if_pos (Int.natAbs_eq_zero.1 hzero)
  rw [hsign, Bool.and_eq_false_iff, ← Bool.not_eq_true, ← Bool.not_eq_true]
  by_contra hboth
  push Not at hboth
  obtain ⟨hnegative, hnegative'⟩ := hboth
  -- Neither number is positive, so both would be zero.
  have hle := toRat_nonpos hnegative
  have hle' := toRat_nonpos hnegative'
  have hplain := ha (isZero_iff_toRat.2 (by linarith))
  rw [hplain] at hnegative
  cases hnegative

/-! ## Products -/

theorem mul_assoc (a b c : Decimal) : (a.mul b).mul c = a.mul (b.mul c) := by
  unfold mul
  simp [Nat.mul_assoc, Int.add_assoc]

theorem mul_one (a : Decimal) : a.mul one = a := by
  simp [mul, one, ofNat]

instance : Std.Associative mul := ⟨mul_assoc⟩

instance : Std.Commutative mul := ⟨mul_comm⟩

end Decimal

namespace Aggregate

open Decimal (toRat)

variable {xs ys vs ws : List Decimal} {v w : Decimal}

theorem product_append (xs ys : List Decimal) :
    product (xs ++ ys) = (product xs).mul (product ys) := by
  calc product (xs ++ ys)
      = ys.foldl Decimal.mul (product xs) := List.foldl_append
    _ = ys.foldl Decimal.mul ((product xs).mul .one) := by rw [Decimal.mul_one]
    _ = (product xs).mul (product ys) := List.foldl_assoc

theorem product_perm (h : xs.Perm ys) : product xs = product ys := h.foldl_eq _

/-! ## Sums -/

/-- The exponents of the members, and zero. A sum takes the smallest of them. -/
def exponents (vs : List Decimal) : Set Int := {e | e = 0 ∨ ∃ v ∈ vs, v.exponent = e}

theorem exponents_append (xs ys : List Decimal) :
    exponents (xs ++ ys) = exponents xs ∪ exponents ys := by
  ext e
  simp only [exponents, Set.mem_ofPred_eq, Set.mem_union, List.mem_append]
  grind

theorem exponents_perm (h : xs.Perm ys) : exponents xs = exponents ys := by
  ext e
  simp only [exponents, Set.mem_ofPred_eq, h.mem_iff]

theorem isLeast_exponent_sum (vs : List Decimal) : IsLeast (exponents vs) (sum vs).exponent := by
  induction vs using List.reverseRecOn with
  | nil => simp [exponents, sum, Decimal.zero, Decimal.ofNat]
  | append_singleton vs v ih =>
    have hexponents : exponents (vs ++ [v]) = insert v.exponent (exponents vs) := by
      ext e
      simp only [exponents, Set.mem_ofPred_eq, Set.mem_insert_iff, List.mem_append,
        List.mem_singleton]
      grind
    rw [sum_append_singleton, Decimal.exponent_add, hexponents, min_comm]
    exact ih.insert v.exponent

/-- A sum is not the zero with a sign, since it starts from the zero without one. -/
theorem hasPlainZero_sum (vs : List Decimal) : (sum vs).HasPlainZero := by
  induction vs using List.reverseRecOn with
  | nil => exact Decimal.hasPlainZero_ofNat 0
  | append_singleton vs v ih =>
    rw [sum_append_singleton]
    exact ih.add v

theorem sum_append (xs ys : List Decimal) : sum (xs ++ ys) = (sum xs).add (sum ys) := by
  apply Decimal.eq_of_toRat_eq (hasPlainZero_sum _) ((hasPlainZero_sum xs).add _)
  · rw [Decimal.toRat_add, toRat_sum, toRat_sum, toRat_sum, List.map_append, List.sum_append]
  · have hboth := (isLeast_exponent_sum xs).union (isLeast_exponent_sum ys)
    rw [← exponents_append] at hboth
    exact (isLeast_exponent_sum _).unique hboth

theorem sum_perm (h : xs.Perm ys) : sum xs = sum ys := by
  apply Decimal.eq_of_toRat_eq (hasPlainZero_sum _) (hasPlainZero_sum _)
  · rw [toRat_sum, toRat_sum, (h.map toRat).sum_eq]
  · have hexponent := isLeast_exponent_sum xs
    rw [exponents_perm h] at hexponent
    exact hexponent.unique (isLeast_exponent_sum _)

theorem average?_perm (h : xs.Perm ys) : average? xs = average? ys := by
  rw [average?, average?, sum_perm h, count, count, h.length_eq]

/-! ## First members -/

/-- The member is related to all members, and no member before it is related to it. -/
def IsFirst (R : ℚ → ℚ → Prop) (vs : List Decimal) (v : Decimal) : Prop :=
  ∃ before after, vs = before ++ v :: after ∧
    (∀ w ∈ before, R v.toRat w.toRat ∧ ¬R w.toRat v.toRat) ∧ ∀ w ∈ after, R v.toRat w.toRat

variable {R : ℚ → ℚ → Prop} {choose : Decimal → Decimal → Decimal}

theorem IsFirst.rel_of_mem [Std.Total R] (h : IsFirst R vs v) (hw : w ∈ vs) :
    R v.toRat w.toRat := by
  obtain ⟨before, after, rfl, hbefore, hafter⟩ := h
  rcases List.mem_append.1 hw with hw | hw
  · exact (hbefore w hw).1
  · rcases List.mem_cons.1 hw with rfl | hw
    · exact (Std.Total.total w.toRat w.toRat).elim id id
    · exact hafter w hw

/-- One more member is chosen only if it is better than the first of the best so far. -/
theorem IsFirst.concat [Std.Total R] [IsTrans ℚ R] (h : IsFirst R vs v)
    (hchoose : R v.toRat w.toRat ∧ choose v w = v ∨ ¬R v.toRat w.toRat ∧ choose v w = w) :
    IsFirst R (vs ++ [w]) (choose v w) := by
  rcases hchoose with ⟨hrel, hkept⟩ | ⟨hbetter, htaken⟩
  · rw [hkept]
    obtain ⟨before, after, rfl, hbefore, hafter⟩ := h
    refine ⟨before, after ++ [w], by simp, hbefore, ?_⟩
    intro u hu
    rcases List.mem_append.1 hu with hu | hu
    · exact hafter u hu
    · rwa [List.mem_singleton.1 hu]
  · -- The new member is better than the one so far, and so better than all.
    rw [htaken]
    have hrel : R w.toRat v.toRat := (Std.Total.total _ _).resolve_left hbetter
    refine ⟨vs, [], rfl, ?_, List.forall_mem_nil _⟩
    intro u hu
    have hvu := h.rel_of_mem hu
    exact ⟨IsTrans.trans _ _ _ hrel hvu, fun huw => hbetter (IsTrans.trans _ _ _ hvu huw)⟩

/-- A fold that keeps a member until a better one comes finds the first of the best. -/
theorem isFirst_foldl [Std.Total R] [IsTrans ℚ R]
    (hchoose : ∀ v w, R v.toRat w.toRat ∧ choose v w = v ∨ ¬R v.toRat w.toRat ∧ choose v w = w)
    (v : Decimal) (vs : List Decimal) : IsFirst R (v :: vs) (vs.foldl choose v) := by
  induction vs using List.reverseRecOn with
  | nil => exact ⟨[], [], rfl, List.forall_mem_nil _, List.forall_mem_nil _⟩
  | append_singleton vs w ih =>
    rw [List.foldl_append, ← List.cons_append]
    exact ih.concat (hchoose _ w)

/-- The first of the best members of rearranged lists have the same value. -/
theorem IsFirst.toRat_eq [Std.Total R] [Std.Antisymm R] (h : IsFirst R vs v)
    (h' : IsFirst R ws w) (hperm : ws.Perm vs) : w.toRat = v.toRat := by
  have hv : v ∈ vs := by
    obtain ⟨before, after, rfl, -⟩ := h
    simp
  have hw : w ∈ ws := by
    obtain ⟨before, after, rfl, -⟩ := h'
    simp
  exact Std.Antisymm.antisymm _ _ (h'.rel_of_mem (hperm.mem_iff.2 hv))
    (h.rel_of_mem (hperm.mem_iff.1 hw))

/-- What a fold finds in a list that is not empty is the first of the best, and its value is that of
what the fold finds in a rearranged list. -/
theorem exists_first [Std.Total R] [IsTrans ℚ R] [Std.Antisymm R]
    {find : List Decimal → Option Decimal}
    (hchoose : ∀ v w, R v.toRat w.toRat ∧ choose v w = v ∨ ¬R v.toRat w.toRat ∧ choose v w = w)
    (hfind : ∀ v vs, find (v :: vs) = some (vs.foldl choose v)) (hperm : ws.Perm vs)
    (hne : vs ≠ []) :
    ∃ v w, find vs = some v ∧ find ws = some w ∧ IsFirst R vs v ∧ w.toRat = v.toRat := by
  have hne' : ws ≠ [] := by
    rintro rfl
    exact hne hperm.nil_eq.symm
  obtain ⟨v, vs, rfl⟩ := List.exists_cons_of_ne_nil hne
  obtain ⟨w, ws, rfl⟩ := List.exists_cons_of_ne_nil hne'
  have hfirst := isFirst_foldl hchoose v vs
  have hfirst' := isFirst_foldl hchoose w ws
  exact ⟨_, _, hfind v vs, hfind w ws, hfirst, hfirst.toRat_eq hfirst' hperm⟩

theorem smaller_cases (v w : Decimal) :
    v.toRat ≤ w.toRat ∧ smaller v w = v ∨ ¬v.toRat ≤ w.toRat ∧ smaller v w = w := by
  rw [not_le, ← Decimal.lt_iff_toRat, ← not_lt, ← Decimal.lt_iff_toRat]
  by_cases h : w.Lt v <;> simp [smaller, h]

theorem larger_cases (v w : Decimal) :
    v.toRat ≥ w.toRat ∧ larger v w = v ∨ ¬v.toRat ≥ w.toRat ∧ larger v w = w := by
  rw [not_le, ← Decimal.lt_iff_toRat, ge_iff_le, ← not_lt, ← Decimal.lt_iff_toRat]
  by_cases h : v.Lt w <;> simp [larger, h]

/-! ## Rearranged lists -/

/-- The sum and the product of joined lists are those of the sums and products, and the sum, the
product and the mean of a rearranged list are the same, all in sign, coefficient and exponent. A
sum that is zero has no sign, and the exponent of a sum is the smallest of zero and the exponents of
the members. The least and the greatest member are the first ones of their value, and this value is
that of a rearranged list. -/
theorem aggregates_of_perm (xs ys : List Decimal) {xs' : List Decimal} (h : xs'.Perm xs) :
    sum (xs ++ ys) = (sum xs).add (sum ys) ∧
    product (xs ++ ys) = (product xs).mul (product ys) ∧
    sum xs' = sum xs ∧ product xs' = product xs ∧
    ((sum xs).IsZero → (sum xs).negative = false) ∧
    IsLeast (exponents xs) (sum xs).exponent ∧
    (xs ≠ [] →
      (∃ v, average? xs = some v ∧ average? xs' = some v) ∧
      (∃ v v', least? xs = some v ∧ least? xs' = some v' ∧ IsFirst (· ≤ ·) xs v ∧
        v'.toRat = v.toRat) ∧
      ∃ v v', greatest? xs = some v ∧ greatest? xs' = some v' ∧ IsFirst (· ≥ ·) xs v ∧
        v'.toRat = v.toRat) := by
  refine ⟨sum_append xs ys, product_append xs ys, sum_perm h, product_perm h, hasPlainZero_sum xs,
    isLeast_exponent_sum xs, fun hne => ⟨?_, ?_, ?_⟩⟩
  · obtain ⟨v, hv⟩ := Option.ne_none_iff_exists'.1 (mt average?_eq_none_iff.1 hne)
    exact ⟨v, hv, (average?_perm h).trans hv⟩
  · exact exists_first smaller_cases (fun _ _ => rfl) h hne
  · exact exists_first larger_cases (fun _ _ => rfl) h hne

/-- The numbers `-0`, `1.50` and `-1.5`. -/
def cancelling : List Decimal := [⟨true, 0, 0⟩, ⟨false, 150, -2⟩, ⟨true, 15, -1⟩]

/-- In whichever order they are added, numbers that cancel give the zero without a sign. -/
theorem aggregates_of_perm_cancelling :
    cancelling.reverse.Perm cancelling ∧ sum cancelling.reverse = ⟨false, 0, -2⟩ ∧
    product cancelling.reverse = ⟨false, 0, -3⟩ ∧ average? cancelling.reverse = some .zero := by
  have hperm : cancelling.reverse.Perm cancelling := List.reverse_perm _
  obtain ⟨-, -, hsum, hproduct, -, -, hne⟩ := aggregates_of_perm cancelling [] hperm
  obtain ⟨⟨v, hv, hv'⟩, -, -⟩ := hne (by decide)
  have haverage : average? cancelling = some .zero := by decide
  exact ⟨hperm, hsum.trans (by decide), hproduct.trans (by decide), hv'.trans (hv ▸ haverage)⟩

end Aggregate

end DecimalSheet
