import DecimalSheet.Proofs.Evaluation.Sessions

/-!
# Answers and what is kept

An evaluator keeps what it answers: a number that is part of the answer to a call is kept for its
cell from then on. This holds of failures only where no cell has been left in progress, since such a
cell is refused with a failure that is kept nowhere.

## Main definitions

* `Evaluator.Retains ev a o`: the outcome `o` of the cell `a` is kept if it is a number

## Main results

* `Run.IsOrderly.gives_of_complete`: the outcome of an evaluation is what its cell gives
* `Moment.IsOrderly.forall₂_evaluateAll`: what is right for each outcome is right for all of them
* `Moment.IsOrderly.number?_of_returns`: numbers in answers are kept
-/

namespace DecimalSheet

namespace Run

variable {s : Calculation} {left : Address → Prop} {target : Address} {n : Nat} {r : Run}

theorem IsOrderly.gives_of_isOver {m : Nat} (h : r.IsOrderly s left target n) (hover : r.IsOver)
    {o : Outcome} (hcomplete : (r.complete m).2 = .ok o) : (r.complete m).1.Gives target o := by
  by_cases hgiven : r.IsGivenUp
  · obtain ⟨reason, hreason⟩ := hgiven
    rw [complete_of_aborted hreason] at hcomplete
    cases hcomplete
  · obtain ⟨o', hr, hends⟩ := complete_of_isOver hover hgiven m
    rw [hends] at hcomplete ⊢
    obtain rfl := Except.ok.inj hcomplete
    rw [hr] at h
    obtain ⟨-, a, m, hgives, hawaits, -⟩ := h
    -- No cell waits, so it is the cell itself that gives the outcome.
    cases hawaits with
    | nil => exact hgives

/-- The outcome to which an evaluation of a cell comes is what the cell gives. -/
theorem IsOrderly.gives_of_complete (hproper : s.IsProper) (h : r.IsOrderly s left target n)
    {o : Outcome} (hcomplete : (r.complete n).2 = .ok o) : (r.complete n).1.Gives target o := by
  induction n generalizing r with
  | zero => exact h.gives_of_isOver h.isOver hcomplete
  | succ n ih =>
    by_cases hover : r.IsOver
    · exact h.gives_of_isOver hover hcomplete
    · rw [complete_succ hover] at hcomplete ⊢
      exact ih (h.turn hproper hover) hcomplete

end Run

namespace Evaluator

variable {ev ev' : Evaluator} {a : Address} {o : Outcome}

/-- The outcome of a cell is kept for it, if it is a number. -/
def Retains (ev : Evaluator) (a : Address) (o : Outcome) : Prop :=
  ∀ v, o = .ok v → ev.number? a = some v

theorem Retains.mono (h : ev.Retains a o) (hadvances : ev.Advances ev') : ev'.Retains a o :=
  fun v hv => hadvances.number?_eq (h v hv)

theorem Gives.retains (h : ev.Gives a o) : ev.Retains a o := by
  rintro v rfl
  exact h.number?_eq_some

end Evaluator

namespace Moment

variable {s : Calculation} {left : Address → Prop} {ev : Evaluator} {a : Address}
  {P : Address → Prop} {table : RawValue} {marker : Option String}

theorem IsOrderly.gives_compute (hproper : s.IsProper) (h : (idle ev).IsOrderly s left)
    (ha : s.grid.Contains a) {o : Outcome} (ho : (ev.compute s.grid.turnBound a).2 = .ok o) :
    (ev.compute s.grid.turnBound a).1.Gives a o := by
  have horderly : (ev.request a []).IsOrderly s left a s.grid.turnBound :=
    (ev.requestsTo_request a []).isOrderly hproper h.1 ha .nil h.2 Calculation.pending_le_turnBound
  exact horderly.gives_of_complete hproper ho

theorem IsOrderly.retains_compute (hproper : s.IsProper) (h : (idle ev).IsOrderly s left)
    (ha : s.grid.Contains a) {o : Outcome} (ho : (ev.compute s.grid.turnBound a).2 = .ok o) :
    (ev.compute s.grid.turnBound a).1.Retains a o :=
  (h.gives_compute hproper ha ho).retains

/-- Where no cell has been left behind, the outcome of a computation is kept for its cell, also if
it is a failure. -/
theorem IsOrderly.outcome?_compute (hgrid : Grid.ofRaw table marker = .ok s.grid)
    (h : (idle ev).IsOrderly s fun _ => False) (ha : s.grid.Contains a) {o : Outcome}
    (ho : (ev.compute s.grid.turnBound a).2 = .ok o) :
    (ev.compute s.grid.turnBound a).1.outcome? a = some o := by
  have hproper : s.IsProper := Calculation.isProper_of_ofRaw hgrid
  have hgives := h.gives_compute hproper ha ho
  have hpasses := h.passes_compute hproper ha
  generalize ev.compute s.grid.turnBound a = x at ho hgives hpasses ⊢
  cases hpasses with
  | givenUp => cases ho
  | result hreaches =>
    obtain ⟨s', left', hkeeps, ⟨-, hbusy⟩, -⟩ := hreaches.isOrderly hgrid h
    obtain rfl := hkeeps.left_eq (by decide)
    -- No cell is in progress any more, so none can be refused.
    refine hgives.resolve_right fun hrefused => ?_
    simpa using (hbusy.inProgress_iff a).1 hrefused.1

/-- What is right for an evaluator when a computation comes to it stays right while further
computations follow. -/
theorem IsOrderly.forall₂_inTurn {α β : Type} {R : Evaluator → α → β → Prop}
    {f : Evaluator → α → Evaluator × Except Abort β} {as : List α}
    (hgrid : Grid.ofRaw table marker = .ok s.grid)
    (hmono : ∀ ev ev' a b, ev.Advances ev' → R ev a b → R ev' a b)
    (hf : ∀ ev a, a ∈ as → (idle ev).IsOrderly s left →
      Passes s P ev (f ev a) ∧ ∀ b, (f ev a).2 = .ok b → R (f ev a).1 a b)
    (h : (idle ev).IsOrderly s left) :
    ∀ bs, (Evaluator.inTurn f ev as).2 = .ok bs →
      List.Forall₂ (R (Evaluator.inTurn f ev as).1) as bs := by
  induction as generalizing ev with
  | nil =>
    rintro bs ⟨⟩
    exact .nil
  | cons a as ih =>
    intro bs hbs
    have htail := fun ev a' ha' => hf ev a' (List.mem_cons_of_mem a ha')
    obtain ⟨hpasses, hR⟩ := hf ev a List.mem_cons_self h
    unfold Evaluator.inTurn at hbs ⊢
    generalize f ev a = x at hpasses hR hbs ⊢
    cases hpasses with
    | givenUp => cases hbs
    | @result ev' b hreaches =>
      -- The evaluator is idle again, and the others start from it.
      obtain ⟨s', left', hkeeps, horderly, -⟩ := hreaches.isOrderly hgrid h
      obtain rfl := hkeeps.eq (by decide)
      obtain rfl := hkeeps.left_eq (by decide)
      have hothers := horderly.passes_inTurn hgrid fun ev a' ha' hev => (htail ev a' ha' hev).1
      have hrest := ih htail horderly
      simp only at hbs ⊢
      generalize Evaluator.inTurn f ev' as = y at hothers hrest hbs ⊢
      cases hothers with
      | givenUp => cases hbs
      | @result ev'' bs' hreaches' =>
        obtain rfl := Except.ok.inj hbs
        obtain ⟨-, -, -, -, hadvances⟩ := hreaches'.isOrderly hgrid horderly
        exact .cons (hmono _ _ _ _ hadvances (hR b rfl)) (hrest bs' rfl)

theorem IsOrderly.forall₂_row {R : Evaluator → Address → Outcome → Prop}
    (hgrid : Grid.ofRaw table marker = .ok s.grid)
    (hmono : ∀ ev ev' a o, ev.Advances ev' → R ev a o → R ev' a o)
    (hR : ∀ ev a, (idle ev).IsOrderly s left → s.grid.Contains a → ∀ o,
      (ev.compute s.grid.turnBound a).2 = .ok o → R (ev.compute s.grid.turnBound a).1 a o)
    {row : List Address} (hrow : row ∈ s.grid.rowAddresses) (h : (idle ev).IsOrderly s left)
    {os : List Outcome}
    (hos : (Evaluator.inTurn (Evaluator.compute · s.grid.turnBound ·) ev row).2 = .ok os) :
    List.Forall₂
      (R (Evaluator.inTurn (Evaluator.compute · s.grid.turnBound ·) ev row).1) row os := by
  have hproper : s.IsProper := Calculation.isProper_of_ofRaw hgrid
  refine IsOrderly.forall₂_inTurn hgrid (P := s.grid.Contains) hmono (fun ev' a ha hev' => ?_) h os
    hos
  have hcontains := Grid.mem_addresses.1 (List.mem_flatten.2 ⟨row, hrow, ha⟩)
  exact ⟨(hev'.passes_compute hproper hcontains).imp fun b hb => hb ▸ hcontains,
    hR ev' a hev' hcontains⟩

/-- What is right for the outcome of a cell when it has been computed is right for all outcomes when
all cells have been evaluated. -/
theorem IsOrderly.forall₂_evaluateAll {R : Evaluator → Address → Outcome → Prop}
    (hgrid : Grid.ofRaw table marker = .ok s.grid)
    (hmono : ∀ ev ev' a o, ev.Advances ev' → R ev a o → R ev' a o)
    (hR : ∀ ev a, (idle ev).IsOrderly s left → s.grid.Contains a → ∀ o,
      (ev.compute s.grid.turnBound a).2 = .ok o → R (ev.compute s.grid.turnBound a).1 a o)
    (h : (idle ev).IsOrderly s left) {rows : List (List Outcome)}
    (hrows : ev.evaluateAll.2 = .ok rows) :
    List.Forall₂ (List.Forall₂ (R ev.evaluateAll.1)) s.grid.rowAddresses rows := by
  have hmono' : ∀ ev ev' row os, ev.Advances ev' → List.Forall₂ (R ev) row os →
      List.Forall₂ (R ev') row os :=
    fun ev ev' _ _ hadvances => List.Forall₂.imp fun a o => hmono ev ev' a o hadvances
  have hall := IsOrderly.forall₂_inTurn hgrid hmono'
    (fun _ _ hrow hev =>
      ⟨hev.passes_row hgrid hrow, fun _ => hev.forall₂_row hgrid hmono hR hrow⟩) h
  unfold Evaluator.evaluateAll at hrows ⊢
  rw [h.grid_eq] at hrows ⊢
  split at hrows
  · cases hrows
  · rename_i ev' values heq
    obtain rfl := Except.ok.inj hrows
    rw [heq] at hall
    -- To tell the end only advances the evaluator.
    exact (hall values rfl).imp fun row os =>
      hmono' _ _ row os (Evaluator.advances_note fun _ => rfl)

/-- A call inside of the grid is answered with outcomes that are kept, as far as they are
numbers. -/
theorem IsOrderly.retains_answer (hgrid : Grid.ofRaw table marker = .ok s.grid)
    (h : (idle ev).IsOrderly s left) {call : Call} (hcall : call.IsWithin s.grid)
    {rows : List (List Outcome)} (hrows : (ev.answer call).2 = .ok rows) :
    List.Forall₂ (List.Forall₂ (ev.answer call).1.Retains) (call.cells s.grid) rows := by
  cases call with
  | one a =>
    have ha := hcall a rfl
    have hretains := fun o => h.retains_compute (Calculation.isProper_of_ofRaw hgrid) ha (o := o)
    rw [Evaluator.answer, Evaluator.evaluate_of_contains (h.grid_eq ▸ ha), h.grid_eq] at hrows ⊢
    generalize ev.compute s.grid.turnBound a = x at hretains hrows ⊢
    obtain ⟨ev', reason | o⟩ := x
    · cases hrows
    · obtain rfl := Except.ok.inj hrows
      exact .cons (.cons (hretains o rfl) .nil) .nil
  | all =>
    refine h.forall₂_evaluateAll hgrid (fun _ _ _ _ hadvances ho => ho.mono hadvances)
      (fun ev' a' hev' ha' o => hev'.retains_compute (Calculation.isProper_of_ofRaw hgrid) ha') ?_
    rw [Evaluator.answer] at hrows
    generalize ev.evaluateAll.2 = x at hrows ⊢
    cases x with
    | error reason => cases hrows
    | ok rows' => exact congrArg Except.ok (Except.ok.inj hrows)

/-- A number that is part of the answer to a call is kept. -/
theorem IsOrderly.number?_of_returns (hgrid : Grid.ofRaw table marker = .ok s.grid)
    (h : (idle ev).IsOrderly s left) {call : Call} {v : Decimal}
    (hreturns : ev.Returns call a (.ok v)) : (ev.answer call).1.number? a = some v := by
  have hcall := hreturns.isWithin
  rw [h.grid_eq] at hcall
  have hretains : (ev.answer call).1.Retains a (.ok v) := by
    refine hreturns.of_forall₂ fun rows hrows => ?_
    rw [h.grid_eq]
    exact h.retains_answer hgrid hcall hrows
  exact hretains v rfl

end Moment

end DecimalSheet
