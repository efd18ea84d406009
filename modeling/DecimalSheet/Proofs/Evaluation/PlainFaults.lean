import DecimalSheet.Proofs.Evaluation.Raising
import DecimalSheet.Proofs.Evaluation.Stack
import DecimalSheet.Proofs.Grid.Texts

/-!
# Plain faults

A plain fault does not tell by itself in which cell it arose, so it is taken to have arisen in the
cell whose evaluation comes to it. The faults of cells that cannot be read are plain, and so are
those of formulas, as long as the functions that they call fail with plain faults.

## Main definitions

* `Fault.IsPlain`: the fault does not tell in which cell it arose
* `Registry.IsPlain`: calls of functions fail with plain faults
* `Registry.FailsWith r fault`: a call of a function fails with the fault

## Main results

* `Grid.isPlain_of_ofRaw`: cells that cannot be read have plain faults
* `Registry.isPlain_standard`: the standard functions fail with plain faults
* `Expr.isPlain_or_of_rest`: expressions come to plain faults, apart from those of functions
-/

namespace DecimalSheet

/-- The fault does not tell in which cell it arose. -/
def Fault.IsPlain (fault : Fault) : Prop := fault.ownOrigin? = none

/-! ## Cells that cannot be read -/

/-- In a grid that is built from a table, cells that cannot be read have plain faults. -/
theorem Grid.isPlain_of_ofRaw {table : RawValue} {marker : Option String} {g : Grid} {a : Address}
    {cell : Cell} {formula : Option Formula} {fault : Fault} (hgrid : ofRaw table marker = .ok g)
    (hcell : g.cell? a = some cell) (hcontent : cell.content = .unreadable formula fault) :
    fault.IsPlain := by
  obtain ⟨source, rfl⟩ := exists_of_ofRaw hgrid hcell
  exact (Content.isOfReading_of_ofRaw hcontent).ownOrigin?_eq

/-! ## Functions -/

/-- Calls that fail with a fault fail with a plain one. -/
def Reducer.IsPlain (f : Reducer) : Prop := ∀ vs fault, f vs = .error (.fault fault) → fault.IsPlain

/-- Calls of functions in the registry that fail with a fault fail with a plain one. -/
def Registry.IsPlain (r : Registry) : Prop := ∀ name f, r.lookup name = .ok f → Reducer.IsPlain f

/-- The fault that there are no values is plain. -/
theorem Reducer.IsTotal.isPlain {f : Reducer} (h : f.IsTotal) : f.IsPlain := by
  intro vs fault hvs
  rcases h vs with ⟨v, hv⟩ | ⟨-, name, hnone⟩
  · cases hv.symm.trans hvs
  · cases hnone.symm.trans hvs
    rfl

/-- The standard functions fail with plain faults. -/
theorem Registry.isPlain_standard : standard.IsPlain :=
  fun name f hf => (isTotal_standard name f hf).isPlain

/-- A function in the registry fails with the fault. -/
def Registry.FailsWith (r : Registry) (fault : Fault) : Prop :=
  ∃ name f vs, r.lookup name = .ok f ∧ f vs = .error (.fault fault)

theorem Registry.IsPlain.of_failsWith {r : Registry} {fault : Fault} (hplain : r.IsPlain)
    (h : r.FailsWith fault) : fault.IsPlain := by
  obtain ⟨name, f, vs, hf, hvs⟩ := h
  exact hplain name f hf vs fault hvs

/-! ## Expressions -/

/-- What is left of a program after some requests raises nothing else. -/
theorem Program.RaisesOnly.rest {α : Type} {P : Raised → Prop} {known : Address → Option Decimal}
    {p : Program α} (h : p.RaisesOnly P) : (p.rest known).RaisesOnly P := by
  induction p with
  | done | raise => exact h
  | ask a next ih =>
    cases hv : known a with
    | none => rwa [rest_ask_of_eq_none hv]
    | some v =>
      rw [rest_ask_of_eq_some hv]
      exact ih v (h v)

namespace Expr

variable {s : Setting} {e : Expr} {raised : Raised} {fault : Fault}

/-- No fault that the evaluation of an expression may end with tells its own origin, unless a
function has failed with it. -/
theorem MayRaise.isPlain_or (h : e.MayRaise s raised) :
    ∀ fault, raised = .fault fault → fault.IsPlain ∨ s.functions.FailsWith fault := by
  induction h with
  | negate _ ih | left _ ih | right _ ih | argument _ _ _ ih => exact ih
  | function hf h =>
    rintro fault rfl
    exact .inr ⟨_, _, _, hf, h⟩
  | @quotient left right a b error h =>
    -- The only fault of a quotient is that of a zero divisor.
    cases error <;> rintro fault ⟨⟩
    exact .inl rfl
  | unknownFunction h =>
    rintro fault ⟨⟩
    obtain rfl := Registry.eq_of_lookup_eq_error h
    exact .inl rfl
  | tooDeep | cell | range | member =>
    rintro fault ⟨⟩
    exact .inl rfl
  | unknownOperator | foreign => rintro fault ⟨⟩

/-- The fault to which an expression comes after some requests is plain, unless a function has
failed with it. -/
theorem isPlain_or_of_rest {room : Nat} {known : Address → Option Decimal}
    (h : (e.program s room).rest known = .raise (.fault fault)) :
    fault.IsPlain ∨ s.functions.FailsWith fault := by
  have hraises : ((e.program s room).rest known).RaisesOnly (e.MayRaise s) :=
    (raisesOnly_program e room).rest
  rw [h] at hraises
  exact MayRaise.isPlain_or hraises fault rfl

end Expr

end DecimalSheet
