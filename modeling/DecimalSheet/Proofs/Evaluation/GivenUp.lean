import DecimalSheet.Proofs.Evaluation.CircularReferences

/-!
# Evaluations that are given up

When a function gives up, the evaluation ends at once, and the cells on the stack keep their status:
they stay in progress for good, whatever is done later. The cell that was asked for is never
evaluated again. It is refused as circular instead, although it may refer to no cell at all, and the
reason for giving up never shows again.

## Main definitions

* `GridFunction.first`: a function that gives up on no values
* `Grid.first`, `Evaluator.first`: a grid whose cell calls this function on no values, and an
  evaluator of it

## Main results

* `Evaluator.exists_of_answer`: a call that is given up leaves a cell behind
* `Evaluator.refused_of_given_up`: the cell is refused ever after
-/

namespace DecimalSheet

/-! ## A function that gives up on no values -/

/-- The first value, which is asked for even if there is none. -/
def GridFunction.first : GridFunction :=
  ⟨fun vs => vs.head?.elim (.error (.abort .missingValue)) .ok, none⟩

namespace Grid

/-- The table of a formula that calls the function on no values. -/
def firstTable : RawValue := .sequence .square [.sequence .square [.text "=first()"]]

/-- The grid of the table `firstTable`. -/
def first : Grid := ⟨1, 1, #v[#v[
  ⟨⟨0, 0⟩, .text "=first()", .formula ⟨"=first()", some "="⟩ (.call "first" []) none⟩]]⟩

theorem ofRaw_firstTable : ofRaw firstTable (some "=") = .ok first := by
  have hts : (⟨"=first()", some "="⟩ : Formula).tokens =
      .ok [⟨.name "first", 0⟩, ⟨.opening, 5⟩, ⟨.closing, 6⟩] := by cbv
  have hcall : IsAtom _ [.name "first", .opening, .closing] (.call "first" []) :=
    .emptyCall rfl
  have htree : (⟨"=first()", some "="⟩ : Formula).tree = .ok (.call "first" []) :=
    (Formula.tree_eq_ok_iff hts).2
      (parse_eq_ok_iff.2 ⟨_, by decide, .product (.factor (.atom hcall))⟩)
  rw [first, ← Content.ofRaw_eq_formula rfl htree]
  rfl

end Grid

namespace Evaluator

/-- The evaluator of the grid `first` with the function under its name. -/
def first : Evaluator :=
  start Grid.first (Registry.standard.register "first" .first none) 28

/-- A value was missing. -/
def lacksValue {α : Type} : Except Raised α → Bool
  | .error (.abort .missingValue) => true
  | _ => false

theorem eq_of_lacksValue {α : Type} {x : Except Raised α} (h : lacksValue x = true) :
    x = .error (.abort .missingValue) := by
  unfold lacksValue at h
  split at h
  · rfl
  · cases h

theorem answer_first : (first.answer (.one ⟨0, 0⟩)).2 = .error (.abort .missingValue) :=
  eq_of_lacksValue (by decide +kernel)

/-! ## Evaluations that are given up -/

open Moment

variable {s : Calculation} {left : Address → Prop} {ev : Evaluator} {a : Address} {call : Call}
  {reason : Abort} {table : RawValue} {marker : Option String}

/-- A call that is given up leaves a cell behind. -/
theorem exists_of_answer (hgrid : Grid.ofRaw table marker = .ok s.grid)
    (h : (idle ev).IsOrderly s left) (hgiven : (ev.answer call).2 = .error (.abort reason)) :
    ∃ a, (s.grid.Contains a ∧ ∀ b, call = .one b → a = b) ∧
      ∃ left : Address → Prop, left a ∧ (idle (ev.answer call).1).IsOrderly s left := by
  by_cases hcall : call.IsWithin s.grid
  · have hpasses := h.passes_answer hgrid hcall
    generalize ev.answer call = answer at hgiven hpasses
    cases hpasses with
    | result => cases hgiven
    | givenUp _ _ _ hleft => exact hleft
  · -- outside of the grid there is a fault instead
    obtain ⟨b, rfl, hb⟩ := Call.exists_of_not_isWithin hcall
    rw [← h.1] at hb
    rw [answer, evaluate_of_not_contains hb] at hgiven
    cases hgiven

/-- A cell in progress is refused when it is asked for between evaluations. -/
theorem evaluate_of_inProgress (ha : ev.grid.Contains a) (h : ev.status[a]? = some .inProgress) :
    ∃ f cycle, (ev.evaluate a).2 = .ok (.error f) ∧ f.fault = .circular a cycle ∧ f.origin = a := by
  refine ⟨ev.nextFailure (.circular a (ev.dependencies.findCycle a)) a, _, ?_, rfl, rfl⟩
  rw [evaluate_of_contains ha, compute, request_of_inProgress h, refuseCircular, refuse,
    Run.complete.eq_def]
  rfl

/-- When a call is given up, a cell is left in progress, the one that was asked for if it was one.
Whatever is done later, this cell stays in progress and is refused as circular. -/
theorem refused_of_given_up (hgrid : Grid.ofRaw table marker = .ok s.grid) :
    let ev := start s.grid s.functions s.scale
    ∀ ops call reason, ((ev.afterAll ops).answer call).2 = .error (.abort reason) →
      ∃ a, (s.grid.Contains a ∧ ∀ b, call = .one b → a = b) ∧
        ∀ later, let ev' := ((ev.afterAll ops).answer call).1.afterAll later
          ev'.state a = .inProgress ∧ ∃ f cycle, (ev'.evaluate a).2 = .ok (.error f) ∧
            f.fault = .circular a cycle ∧ f.origin = a := by
  intro ev ops call reason hgiven
  let all := [Kind.evaluation, .registration, .abandonment]
  have hstart : (idle ev).IsOrderly s fun _ => False := isOrderly_start
  have hops : (idle ev).Reaches all (idle (ev.afterAll ops)) :=
    reaches_afterAll hgrid hstart (by decide) ops (.inr (by decide))
  obtain ⟨s', left', hkeeps, horderly, -⟩ := hops.isOrderly hgrid hstart
  replace hgrid := hkeeps.grid_eq ▸ hgrid
  obtain ⟨a, ha, left, hleft, horderly'⟩ := exists_of_answer hgrid horderly hgiven
  rw [hkeeps.grid_eq] at ha
  refine ⟨a, ha, fun later => ?_⟩
  -- What was left behind once stays behind.
  have hlater : (idle ((ev.afterAll ops).answer call).1).Reaches all _ :=
    reaches_afterAll hgrid horderly' (by decide) later (.inr (by decide))
  obtain ⟨s'', left'', hkeeps', ⟨hs, hbusy⟩, -⟩ := hlater.isOrderly hgrid horderly'
  have hinProgress := (hbusy.inProgress_iff a).2 (.inr (hkeeps'.left_mono a hleft))
  refine ⟨state_eq_inProgress_iff.2 hinProgress, evaluate_of_inProgress ?_ hinProgress⟩
  have hcontains := ha.1
  rw [← hkeeps.grid_eq, ← hkeeps'.grid_eq, ← hs] at hcontains
  exact hcontains

/-- The evaluation of the cell gives up, so the cell is refused whatever is done afterwards. -/
theorem refused_first :
    (first.answer (.one ⟨0, 0⟩)).2 = .error (.abort .missingValue) ∧ ∀ later,
      let ev := (first.answer (.one ⟨0, 0⟩)).1.afterAll later
      ev.state ⟨0, 0⟩ = .inProgress ∧ ∃ f cycle, (ev.evaluate ⟨0, 0⟩).2 = .ok (.error f) ∧
        f.fault = .circular ⟨0, 0⟩ cycle ∧ f.origin = ⟨0, 0⟩ := by
  obtain ⟨a, ⟨-, ha⟩, hlater⟩ :=
    refused_of_given_up (s := first.calculation) Grid.ofRaw_firstTable [] _ _ answer_first
  obtain rfl := ha _ rfl
  exact ⟨answer_first, hlater⟩

/-- The cell whose evaluation was given up is in progress between two calls. The second call does
not give up again but refuses the cell as circular, although the cell refers to no cell at all. -/
theorem answers_first :
    Grid.ofRaw Grid.firstTable (some "=") = .ok first.grid ∧
      (first.answer (.one ⟨0, 0⟩)).2 = .error (.abort .missingValue) ∧
      (first.after [.one ⟨0, 0⟩]).state ⟨0, 0⟩ = .inProgress ∧
      (∃ f, ((first.after [.one ⟨0, 0⟩]).evaluate ⟨0, 0⟩).2 = .ok (.error f) ∧
        f.fault = .circular ⟨0, 0⟩ []) ∧
      ∀ b, ¬first.calculation.RefersTo ⟨0, 0⟩ b := by
  refine ⟨Grid.ofRaw_firstTable, answer_first, by decide +kernel,
    exists_of_reported? (by decide +kernel), ?_⟩
  rintro b ⟨tree, htree, hb⟩
  obtain rfl := Option.some.inj htree
  simp [Expr.mentionsAll, Expr.referencesAll] at hb

end Evaluator

end DecimalSheet
