import DecimalSheet.Proofs.Function.Lookup

/-!
# Functions that never give up

A call of a function comes to a value or to a fault. Formulas may use functions that give up
instead, but none of the standard functions does: those that are not defined on no values are
guarded, and the guard is all that keeps a standard function from a value.

## Main definitions

* `Reducer.NeverAborts`, `Registry.NeverAborts`: no call gives up
* `Reducer.IsTotal`, `Registry.IsTotal`: all calls have values, apart from those on no values

## Main results

* `Registry.isTotal_standard`: the standard functions have values, unless they refuse no values
* `Registry.neverAborts_standard`: the standard functions never give up
-/

namespace DecimalSheet

/-- Each call comes to a value or to a fault. -/
def Reducer.NeverAborts (f : Reducer) : Prop := ∀ vs reason, f vs ≠ .error (.abort reason)

/-- No function in the registry gives up. -/
def Registry.NeverAborts (r : Registry) : Prop :=
  ∀ name f, r.lookup name = .ok f → Reducer.NeverAborts f

/-- Each call has a value, but one on no values may be refused with the fault that tells so. -/
def Reducer.IsTotal (f : Reducer) : Prop :=
  ∀ vs, (∃ v, f vs = .ok v) ∨ vs = [] ∧ ∃ name, f vs = .error (.fault (.noValues name))

/-- All calls of functions in the registry have values, but some may be refused on no values. -/
def Registry.IsTotal (r : Registry) : Prop := ∀ name f, r.lookup name = .ok f → Reducer.IsTotal f

namespace Reducer

variable {f : Reducer}

theorem IsTotal.neverAborts (h : IsTotal f) : NeverAborts f := by
  intro vs reason hvs
  rcases h vs with ⟨v, hv⟩ | ⟨-, name, hv⟩ <;> cases hv.symm.trans hvs

theorem isTotal_of_ok (h : ∀ vs, ∃ v, f vs = .ok v) : IsTotal f := fun vs => .inl (h vs)

/-- A guarded function needs no value for a call on no values. -/
theorem isTotal_guarded {name : String} (h : ∀ vs, vs ≠ [] → ∃ v, f vs = .ok v) :
    IsTotal (guarded name f) := by
  intro vs
  unfold guarded
  split
  · rename_i hempty
    exact .inr ⟨hempty, _, rfl⟩
  · rename_i hne
    exact .inl (h vs hne)

end Reducer

/-! ## Standard functions -/

/-- The function never gives up when it is called as its mark asks for. -/
def GridFunction.NeverAborts (f : GridFunction) : Prop :=
  ∀ m, f.mark = some m → Reducer.NeverAborts (m.apply f.run)

/-- The function has values when it is called as its mark asks for. -/
def GridFunction.IsTotal (f : GridFunction) : Prop :=
  ∀ m, f.mark = some m → Reducer.IsTotal (m.apply f.run)

namespace GridFunction

theorem isTotal_sum : sum.IsTotal := by
  rintro m ⟨⟩
  exact Reducer.isTotal_of_ok fun vs => ⟨_, rfl⟩

theorem isTotal_product : product.IsTotal := by
  rintro m ⟨⟩
  exact Reducer.isTotal_of_ok fun vs => ⟨_, rfl⟩

theorem isTotal_count : count.IsTotal := by
  rintro m ⟨⟩
  exact Reducer.isTotal_of_ok fun vs => ⟨_, rfl⟩

theorem isTotal_min : min.IsTotal := by
  rintro m ⟨⟩
  refine Reducer.isTotal_guarded fun vs hne => ?_
  obtain ⟨v, vs, rfl⟩ := List.exists_cons_of_ne_nil hne
  exact ⟨_, rfl⟩

theorem isTotal_max : max.IsTotal := by
  rintro m ⟨⟩
  refine Reducer.isTotal_guarded fun vs hne => ?_
  obtain ⟨v, vs, rfl⟩ := List.exists_cons_of_ne_nil hne
  exact ⟨_, rfl⟩

theorem isTotal_average : average.IsTotal := by
  rintro m ⟨⟩
  refine Reducer.isTotal_guarded fun vs hne => ?_
  -- Some values are divided by their number, which is not zero.
  obtain ⟨v, hv⟩ := Option.ne_none_iff_exists'.1 (mt Aggregate.average?_eq_none_iff.1 hne)
  refine ⟨v, ?_⟩
  show (Aggregate.average? vs).elim _ _ = _
  rw [hv]
  rfl

theorem neverAborts_product : product.NeverAborts := fun m hm => (isTotal_product m hm).neverAborts

end GridFunction

theorem Collection.isTotal_standard : ∀ m ∈ standard, ∀ f, m.2 = some f → f.IsTotal := by
  simp only [standard, List.forall_mem_cons, Option.some.injEq, forall_eq']
  exact ⟨GridFunction.isTotal_average, GridFunction.isTotal_count, GridFunction.isTotal_max,
    GridFunction.isTotal_min, GridFunction.isTotal_product, GridFunction.isTotal_sum,
    List.forall_mem_nil _⟩

namespace Registry

/-- All calls of standard functions have values, but some are refused on no values. -/
theorem isTotal_standard : standard.IsTotal :=
  forall_lookup_ofCollections (P := fun _ f => f.IsTotal) fun c hc => by
    obtain rfl := List.mem_singleton.1 hc
    exact Collection.isTotal_standard

theorem IsTotal.neverAborts {r : Registry} (h : r.IsTotal) : r.NeverAborts :=
  fun name f hf => (h name f hf).neverAborts

/-- The standard functions never give up. -/
theorem neverAborts_standard : standard.NeverAborts := isTotal_standard.neverAborts

end Registry

/-- The function may be registered if it may be registered alone. -/
theorem Registry.NeverAborts.register {r : Registry} (h : r.NeverAborts) {name : String}
    {f : GridFunction} {refusesEmpty : Option Bool}
    (hf : (Registry.empty.register name f refusesEmpty).NeverAborts) :
    (r.register name f refusesEmpty).NeverAborts := by
  intro other g hg
  rw [lookup_register] at hg
  split at hg
  · -- the function is the new one
    rename_i heq
    refine hf other g ?_
    rw [lookup_register, if_pos heq]
    exact hg
  · exact h other g hg

end DecimalSheet
