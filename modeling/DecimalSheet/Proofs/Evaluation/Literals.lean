import DecimalSheet.Proofs.Evaluation.Trails
import DecimalSheet.Proofs.Grid.Tables

/-!
# Grids without formulas

A cell that holds no formula has its outcome from the start: the number that it holds, or the
failure that it could not be read. Where no cell holds a formula, evaluating all cells gives just
these outcomes, whatever the functions and the scale are.

## Main definitions

* `Grid.Holds g a o`: the cell at an address has the outcome `o` from the start
* `Evaluator.IsQuiet ev`: nothing but such outcomes is kept

## Main results

* `Evaluator.IsQuiet.exists_compute`: the answer for a cell without a formula
* `Evaluator.exists_evaluateAll_of_holds`: the answer for all cells of a grid without formulas
-/

namespace DecimalSheet

/-- The cell at an address has the outcome from the start, since it holds no formula. -/
def Grid.Holds (g : Grid) (a : Address) (o : Outcome) : Prop :=
  ∃ cell, g.cell? a = some cell ∧ cell.content.outcome? a = some o

theorem Grid.Holds.eq {g : Grid} {a : Address} {o o' : Outcome} (h : g.Holds a o)
    (h' : g.Holds a o') : o = o' := by
  obtain ⟨cell, hcell, ho⟩ := h
  obtain ⟨cell', hcell', ho'⟩ := h'
  obtain rfl := Option.some.inj (hcell.symm.trans hcell')
  exact Option.some.inj (ho.symm.trans ho')

namespace Evaluator

variable {ev : Evaluator} {g : Grid} {a : Address} {o : Outcome}

/-- Nothing is kept of the cells but what they have from the start. -/
structure IsQuiet (g : Grid) (ev : Evaluator) : Prop where
  grid_eq : ev.grid = g
  kept : ∀ a st, ev.status[a]? = some st → ∃ o, g.Holds a o ∧ st = .finished o

theorem isQuiet_start (g : Grid) (functions : Registry) (scale : Int) :
    (start g functions scale).IsQuiet g :=
  ⟨rfl, fun a st h => by simp [start] at h⟩

theorem IsQuiet.keep (h : ev.IsQuiet g) (ho : g.Holds a o) : (ev.keep a o).IsQuiet g where
  grid_eq := h.grid_eq
  kept b st hst := by
    rw [show (ev.keep a o).status = ev.status.insert a (.finished o) from rfl,
      Calculation.getElem?_insert] at hst
    split at hst
    · rename_i hab
      subst hab
      exact ⟨o, ho, (Option.some.inj hst).symm⟩
    · exact h.kept b st hst

/-- A cell without a formula settles as soon as it is asked for. -/
theorem startCell_of_outcome? {content : Content} (h : content.outcome? a = some o)
    (below : List Frame) : ev.startCell a content below = ev.settle a o below := by
  cases content with
  | literal | unreadable => exact congrArg (ev.settle a · below) (Option.some.inj h)
  | formula => cases h

theorem complete_returning (turns : Nat) :
    (Run.mk ev (.returning o [])).complete turns = (ev, .ok o) := by
  unfold Run.complete
  rfl

/-- The answer for a cell without a formula is the outcome that it has from the start. -/
theorem IsQuiet.exists_compute (h : ev.IsQuiet g) (ho : g.Holds a o) (turns : Nat) :
    ∃ ev', ev.compute turns a = (ev', .ok o) ∧ ev'.IsQuiet g := by
  rw [compute, request]
  cases hst : ev.status[a]? with
  | none =>
    obtain ⟨cell, hcell, hcontent⟩ := ho
    refine ⟨ev.keep a o, ?_, h.keep ⟨cell, hcell, hcontent⟩⟩
    simp only [h.grid_eq, hcell]
    rw [startCell_of_outcome? hcontent]
    exact complete_returning turns
  | some st =>
    obtain ⟨o', ho', rfl⟩ := h.kept a st hst
    obtain rfl := ho.eq ho'
    exact ⟨ev, complete_returning turns, h⟩

/-- Computations that have a result and keep an invariant have results in turn. -/
theorem exists_inTurn {α β : Type} {P : Evaluator → Prop} {R : α → β → Prop}
    {f : Evaluator → α → Evaluator × Except Abort β} {as : List α}
    (hf : ∀ ev a, a ∈ as → P ev → ∃ ev' b, f ev a = (ev', .ok b) ∧ R a b ∧ P ev') (h : P ev) :
    ∃ ev' bs, inTurn f ev as = (ev', .ok bs) ∧ List.Forall₂ R as bs ∧ P ev' := by
  induction as generalizing ev with
  | nil => exact ⟨ev, [], rfl, .nil, h⟩
  | cons a as ih =>
    obtain ⟨ev', b, heq, hb, h'⟩ := hf ev a List.mem_cons_self h
    obtain ⟨ev'', bs, heq', hbs, h''⟩ :=
      ih (fun ev a' ha' => hf ev a' (List.mem_cons_of_mem a ha')) h'
    refine ⟨ev'', b :: bs, ?_, .cons hb hbs, h''⟩
    rw [inTurn, heq]
    simp only [heq']

/-- Where no cell holds a formula, evaluating all cells gives the outcomes that they have from the
start. -/
theorem exists_evaluateAll_of_holds (hall : ∀ a, g.Contains a → ∃ o, g.Holds a o)
    (functions : Registry) (scale : Int) :
    ∃ values, (start g functions scale).evaluateAll.2 = .ok values ∧
      g.Tabulates g.Holds values := by
  have hrow : ∀ ev row, row ∈ g.rowAddresses → ev.IsQuiet g → ∃ ev' os,
      inTurn (compute · g.turnBound ·) ev row = (ev', .ok os) ∧
        List.Forall₂ g.Holds row os ∧ ev'.IsQuiet g := by
    intro ev row hmem hev
    refine exists_inTurn (fun ev' a ha hev' => ?_) hev
    obtain ⟨o, ho⟩ := hall a (Grid.mem_addresses.1 (List.mem_flatten.2 ⟨row, hmem, ha⟩))
    obtain ⟨ev'', heq, hev''⟩ := hev'.exists_compute ho g.turnBound
    exact ⟨ev'', o, heq, ho, hev''⟩
  obtain ⟨ev', values, heq, hvalues, -⟩ := exists_inTurn hrow (isQuiet_start g functions scale)
  refine ⟨values, ?_, Grid.tabulates_of_forall₂ hvalues⟩
  rw [evaluateAll, show (start g functions scale).grid = g from rfl, heq]

end Evaluator

end DecimalSheet
