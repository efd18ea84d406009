import DecimalSheet.Proofs.Evaluation.Answers
import DecimalSheet.Proofs.Evaluation.Turns

/-!
# Following a formula

A cell that holds a formula is evaluated by following the program of the formula: each cell for
which it asks is evaluated to its end, and the next one is asked for with the number that was found.
The turns of an evaluation do nothing else, since a formula that waits plays no part until the
evaluation above it has come to its end.

The numbers that a program was given on its way are kept. So a program that has been followed to a
value once comes to the same value whenever it is followed again, from then on without evaluating
anything.

## Main definitions

* `Run.above r below`: an evaluation with further formulas that wait
* `Evaluator.follow ev c p`: the end of following the program `p` on behalf of the cell `c`

## Main results

* `Run.turn_above`: formulas that wait below play no part in a turn
* `Evaluator.compute_of_formula`: a formula is evaluated by following its program
* `Evaluator.follow_bind`: programs that follow one another
* `Moment.IsOrderly.exists_follow`: the numbers that a program was given are kept
* `Evaluator.exists_follow_of_rest`: a program whose requests have known numbers comes to its value
-/

namespace DecimalSheet

/-! ## Formulas that wait below -/

namespace Run

variable {r : Run} {upper below : List Frame} {k : Nat}

/-- The evaluation, with further formulas that wait for its outcome. -/
def above (r : Run) (below : List Frame) : Run where
  evaluator := r.evaluator
  phase := match r.phase with
    | .running c p upper => .running c p (upper ++ below)
    | .returning o upper => .returning o (upper ++ below)
    | .aborted reason => .aborted reason

/-- The end of an evaluation, whose outcome is handed to the cells that wait. -/
def ended (below : List Frame) : Evaluator × Except Abort Outcome → Run
  | (ev, .ok o) => ⟨ev, .returning o below⟩
  | (ev, .error reason) => ⟨ev, .aborted reason⟩

end Run

namespace Evaluator

variable {ev : Evaluator} {a c : Address} {p : Program Decimal} {upper below : List Frame}

theorem request_append (ev : Evaluator) (a : Address) (upper below : List Frame) :
    ev.request a (upper ++ below) = (ev.request a upper).above below := by
  unfold request
  split
  · rfl
  · rfl
  · split
    · unfold startCell
      split <;> rfl
    · rfl

theorem proceed_append (ev : Evaluator) (c : Address) (p : Program Decimal)
    (upper below : List Frame) :
    ev.proceed c p (upper ++ below) = (ev.proceed c p upper).above below := by
  cases p with
  | done value => rfl
  | raise raised => cases raised <;> rfl
  | ask a next => exact request_append (ev.depend a c) a (⟨c, next⟩ :: upper) below

end Evaluator

namespace Run

variable {r : Run} {upper below : List Frame} {k : Nat}

/-- Formulas that wait below play no part in a turn, unless it is their turn. -/
theorem turn_above (hover : ¬r.IsOver) : (r.above below).turn = r.turn.above below := by
  obtain ⟨ev, phase⟩ := r
  cases phase with
  | running c p upper => exact ev.proceed_append c p upper below
  | returning o upper =>
    cases upper with
    | nil => exact absurd trivial hover
    | cons frame upper =>
      cases o with
      | ok v => exact ev.proceed_append frame.cell (frame.next v) upper below
      | error f => rfl
  | aborted reason => exact absurd trivial hover

theorem iterate_above (hover : ∀ j < k, ¬(Run.turn^[j] r).IsOver) :
    Run.turn^[k] (r.above below) = (Run.turn^[k] r).above below := by
  induction k with
  | zero => rfl
  | succ k ih =>
    rw [Function.iterate_succ_apply', Function.iterate_succ_apply',
      ih fun j hj => hover j (Nat.lt_succ_of_lt hj)]
    exact turn_above (hover k (Nat.lt_succ_self k))

theorem above_of_isOver (hover : r.IsOver) : r.above below = ended below (r.complete 0) := by
  obtain ⟨ev, phase⟩ := r
  cases phase with
  | running => exact hover.elim
  | returning o upper =>
    cases upper with
    | nil => rfl
    | cons => exact hover.elim
  | aborted reason => rfl

theorem isOver_ended (x : Evaluator × Except Abort Outcome) : (ended [] x).IsOver := by
  obtain ⟨ev, reason | o⟩ := x <;> trivial

theorem complete_ended (x : Evaluator × Except Abort Outcome) : (ended [] x).complete 0 = x := by
  obtain ⟨ev, reason | o⟩ := x <;> rfl

end Run

namespace Evaluator

variable {ev : Evaluator} {a c : Address} {below : List Frame}

/-- A request takes the turns of the evaluation of the cell, whatever waits for it. -/
theorem exists_iterate_request (ev : Evaluator) (a : Address) (below : List Frame) :
    ∃ k, Run.turn^[k] (ev.request a below) =
      Run.ended below (ev.compute ev.grid.turnBound a) := by
  obtain ⟨turns, hle, hover, hcompute⟩ := exists_turns ev a
  have hbound : turns ≤ ev.grid.turnBound := hle.trans Calculation.unstartedTurns_le_turnBound
  have hnow : ∀ j < turns, ¬(Run.turn^[j] (ev.request a [])).IsOver := by
    intro j hj
    exact mt (hover j).1 (Nat.not_le.2 hj)
  refine ⟨turns, ?_⟩
  rw [← List.nil_append below, request_append, Run.iterate_above hnow,
    Run.above_of_isOver ((hover turns).2 (Nat.le_refl turns)), hcompute _ hbound, List.nil_append]

/-- An evaluation comes to the end to which its turns lead. -/
theorem compute_of_iterate {k : Nat} {x : Evaluator × Except Abort Outcome}
    (h : Run.turn^[k] (ev.request a []) = Run.ended [] x) :
    ev.compute ev.grid.turnBound a = x := by
  obtain ⟨turns, hle, hover, hcompute⟩ := exists_turns ev a
  have hbound : turns ≤ ev.grid.turnBound := hle.trans Calculation.unstartedTurns_le_turnBound
  have hk : turns ≤ k := (hover k).1 (h ▸ Run.isOver_ended x)
  -- The turns after the end change nothing.
  obtain ⟨m, rfl⟩ := Nat.exists_eq_add_of_le' hk
  rw [Function.iterate_add_apply,
    Run.iterate_turn_of_isOver ((hover turns).2 (Nat.le_refl turns))] at h
  rw [hcompute _ hbound, h, Run.complete_ended]

/-! ## Programs -/

/-- What is done with a value, if there is one. -/
def andThen {α β : Type} (x : Evaluator × Except Abort (Except Failure α))
    (f : Evaluator → α → Evaluator × Except Abort (Except Failure β)) :
    Evaluator × Except Abort (Except Failure β) :=
  match x with
  | (ev, .ok (.ok v)) => f ev v
  | (ev, .ok (.error failure)) => (ev, .ok (.error failure))
  | (ev, .error reason) => (ev, .error reason)

/-- Follows a program on behalf of a cell: each cell for which it asks is evaluated to its end, and
the program goes on with the number that was found. -/
def follow {α : Type} (ev : Evaluator) (c : Address) (p : Program α) :
    Evaluator × Except Abort (Except Failure α) :=
  match p with
  | .done value => (ev, .ok (.ok value))
  | .raise (.fault fault) => (ev.countFailure, .ok (.error (ev.nextFailure fault c)))
  | .raise (.abort reason) => (ev, .error reason)
  | .ask a next =>
    andThen ((ev.depend a c).compute ev.grid.turnBound a) fun ev v => ev.follow c (next v)

/-- Keeps the outcome of a cell, if its formula has come to one. -/
def keeping (c : Address) : Evaluator × Except Abort Outcome → Evaluator × Except Abort Outcome
  | (ev, .ok o) => (ev.keep c o, .ok o)
  | (ev, .error reason) => (ev, .error reason)

@[simp] theorem keeping_snd (c : Address) (x : Evaluator × Except Abort Outcome) :
    (keeping c x).2 = x.2 := by
  obtain ⟨ev, reason | o⟩ := x <;> rfl

/-- The formula of a cell begins. -/
def begin (ev : Evaluator) (c : Address) (source : String) : Evaluator :=
  { ev with status := ev.status.insert c .inProgress }.note (.started c source)

variable {α β : Type} {p : Program α}

/-- Programs that follow one another are followed one after the other. -/
theorem follow_bind (ev : Evaluator) (c : Address) (p : Program α) (f : α → Program β) :
    ev.follow c (p >>= f) = andThen (ev.follow c p) fun ev v => ev.follow c (f v) := by
  induction p generalizing ev with
  | done value => rfl
  | raise raised => cases raised <;> rfl
  | ask a next ih =>
    rw [Program.ask_bind, follow, follow]
    obtain ⟨ev', reason | failure | v⟩ := (ev.depend a c).compute ev.grid.turnBound a
    · rfl
    · rfl
    · exact ih v ev'

theorem follow_bind_of_value {v : α} {f : α → Program β} {ev' : Evaluator}
    (h : ev.follow c p = (ev', .ok (.ok v))) : ev.follow c (p >>= f) = ev'.follow c (f v) := by
  rw [follow_bind, h]
  rfl

/-- A failure ends both programs. -/
theorem follow_bind_of_failure {failure : Failure} {f : α → Program β} {ev' : Evaluator}
    (h : ev.follow c p = (ev', .ok (.error failure))) :
    ev.follow c (p >>= f) = (ev', .ok (.error failure)) := by
  rw [follow_bind, h]
  rfl

/-- The turns of a formula follow its program. -/
theorem exists_iterate_proceed (ev : Evaluator) (c : Address) (p : Program Decimal)
    (below : List Frame) :
    ∃ k, Run.turn^[k] (ev.proceed c p below) = Run.ended below (keeping c (ev.follow c p)) := by
  induction p generalizing ev with
  | done value => exact ⟨0, rfl⟩
  | raise raised => cases raised <;> exact ⟨0, rfl⟩
  | ask a next ih =>
    obtain ⟨k, hk⟩ := exists_iterate_request (ev.depend a c) a (⟨c, next⟩ :: below)
    have hgrid : (ev.depend a c).grid = ev.grid := rfl
    rw [proceed, follow]
    rw [hgrid] at hk
    generalize (ev.depend a c).compute ev.grid.turnBound a = x at hk ⊢
    obtain ⟨ev', reason | failure | v⟩ := x
    · exact ⟨k, hk⟩
    · -- the failure ends the formula in one more turn
      refine ⟨k + 1, ?_⟩
      rw [Function.iterate_succ_apply', hk]
      rfl
    · -- the formula goes on with the value
      obtain ⟨m, hm⟩ := ih v ev'
      refine ⟨m + (k + 1), ?_⟩
      rw [Function.iterate_add_apply, Function.iterate_succ_apply', hk]
      exact hm

/-- A cell that holds a formula is evaluated by following the program of the formula. -/
theorem compute_of_formula {cell : Cell} {f : Formula} {tree : Expr}
    {references : Option (List Reference)} (hnew : ev.status[c]? = none)
    (hcell : ev.grid.cell? c = some cell) (hcontent : cell.content = .formula f tree references) :
    ev.compute ev.grid.turnBound c = keeping c
      ((ev.begin c f.source).follow c (tree.program ev.setting Expr.maxHeight)) := by
  have hrequest : ev.request c [] = ev.startFormula c f.source tree [] := by
    simp only [request, hnew, hcell, startCell, hcontent]
  obtain ⟨k, hk⟩ := (ev.begin c f.source).exists_iterate_proceed c
    (tree.program ev.setting Expr.maxHeight) []
  refine compute_of_iterate (k := k + 1) ?_
  rw [Function.iterate_succ_apply, hrequest]
  exact hk

/-! ## Numbers that are known -/

/-- A number that is kept is found at once. -/
theorem compute_of_number? {v : Decimal} (h : ev.number? a = some v) (turns : Nat) :
    ev.compute turns a = (ev, .ok (.ok v)) := by
  have hstatus := outcome?_eq_some_iff.1 (number?_eq_some_iff.1 h)
  simp only [compute, request, hstatus]
  rw [Run.complete.eq_def]

/-- A program whose requests all have known numbers comes to its value. -/
theorem exists_follow_of_rest {v : α} (h : p.rest ev.number? = .done v) :
    ∃ ev', ev.follow c p = (ev', .ok (.ok v)) := by
  induction p generalizing ev with
  | done value =>
    cases h
    exact ⟨ev, rfl⟩
  | raise raised => cases h
  | ask a next ih =>
    cases hv : ev.number? a with
    | none =>
      rw [Program.rest_ask_of_eq_none hv] at h
      cases h
    | some w =>
      rw [Program.rest_ask_of_eq_some hv] at h
      -- The request only adds an edge.
      have hknown : (ev.depend a c).number? a = some w := hv
      rw [follow, compute_of_number? hknown]
      exact ih w h

end Evaluator

namespace Moment

variable {s : Calculation} {left : Address → Prop} {ev : Evaluator} {c : Address} {α : Type}
  {table : RawValue} {marker : Option String}

/-- Following a program that asks for cells of the grid comes to an end, and the numbers that were
given are kept: if the end is a value, then this is what is left of the program. -/
theorem IsOrderly.exists_follow (hgrid : Grid.ofRaw table marker = .ok s.grid)
    (hsafe : s.NeverAborts) (h : (idle ev).IsOrderly s left) {p : Program α} {P : Address → Prop}
    {n : Nat} (hp : p.Behaves (fun b => P b ∧ s.grid.Contains b) s.NeverAborts n) :
    ∃ ev' x, ev.follow c p = (ev', .ok x) ∧ (idle ev').IsOrderly s left ∧ ev.Advances ev' ∧
      ∀ v, x = .ok v → p.rest ev'.number? = .done v := by
  induction p generalizing ev n with
  | done value =>
    refine ⟨ev, .ok value, rfl, h, .refl ev, ?_⟩
    rintro v ⟨rfl⟩
    rfl
  | raise raised =>
    cases raised with
    | fault fault =>
      exact ⟨ev.countFailure, _, rfl, ⟨h.1, h.2.congr rfl⟩, Evaluator.advances_countFailure, nofun⟩
    | abort reason => exact absurd hsafe hp
  | ask a next ih =>
    obtain ⟨-, ⟨-, ha⟩, hnext⟩ := hp
    have hproper : s.IsProper := Calculation.isProper_of_ofRaw hgrid
    have hasked : (idle (ev.depend a c)).IsOrderly s left := ⟨h.1, h.2.congr rfl⟩
    have hpasses := hasked.passes_compute hproper ha
    have hretains := fun o => hasked.retains_compute hproper ha (o := o)
    rw [Evaluator.follow, h.grid_eq]
    generalize (ev.depend a c).compute s.grid.turnBound a = x at hpasses hretains ⊢
    cases hpasses with
    | givenUp haborts => exact absurd hsafe haborts
    | @result ev' o hreaches =>
      obtain ⟨s', left', hkeeps, horderly, hadvances⟩ := hreaches.isOrderly hgrid hasked
      obtain rfl := hkeeps.eq (by decide)
      obtain rfl := hkeeps.left_eq (by decide)
      have hbefore : ev.Advances ev' := Evaluator.advances_depend.trans hadvances
      cases o with
      | error f => exact ⟨ev', .error f, rfl, horderly, hbefore, nofun⟩
      | ok v =>
        obtain ⟨ev'', x, hfollow, horderly', hadvances', hrest⟩ := ih v horderly (hnext v)
        refine ⟨ev'', x, hfollow, horderly', hbefore.trans hadvances', fun w hw => ?_⟩
        -- The number that was given stays known.
        have hknown : ev''.number? a = some v := hadvances'.number?_eq (hretains _ rfl v rfl)
        rw [Program.rest_ask_of_eq_some hknown]
        exact hrest w hw

end Moment

end DecimalSheet
