import DecimalSheet.Proofs.Evaluation.Cycles
import DecimalSheet.Proofs.Evaluation.Failures

/-!
# Circular references

A cell is refused as circular when a formula asks for it while it is in progress. As long as no
evaluation has been given up, the cell then lies on the stack, and the cycle that is reported is the
part of the stack from the cell up to the one that asks, although it is searched in the dependencies
of all evaluations: while formulas wait, each cell on the stack has been asked for by the one below
it alone, since a cell is asked for by others only before it fails or after it has its outcome.

The failure goes down the stack and is kept for every cell on it, so all cells of the cycle end with
this one failure.

## Main definitions

* `Calculation.IsCycle s cycle`: each of the cells is referred to by the next one
* `Run.Asks r c a`: in the next turn the formula of the cell `c` asks for the cell `a`
* `Moment.IsLinked m`: the dependencies of the stack are those of its cells alone
* `Moment.Fails f a m`: the failure is kept for the cell, or on its way to it

## Main results

* `Moment.Step.isLinked`, `Moment.Step.fails`: both are kept by all steps
* `Evaluator.circular_references`: what is reported is the cycle on the stack
-/

namespace DecimalSheet

/-- The cells are distinct, each of them is referred to by the next one, and the last one by the
first. -/
structure Calculation.IsCycle (s : Calculation) (cycle : List Address) : Prop where
  nodup : cycle.Nodup
  isChain : (cycle ++ cycle.take 1).IsChain fun a b => s.RefersTo b a

theorem Evaluator.request_of_inProgress {ev : Evaluator} {a : Address} {below : List Frame}
    (h : ev.status[a]? = some .inProgress) : ev.request a below = ev.refuseCircular a below := by
  unfold request
  split <;> simp_all

/-! ## Dependencies of the stack -/

/-- Cells that have not begun have not been asked for. -/
def Evaluator.IsUnasked (ev : Evaluator) : Prop :=
  ∀ a : Address, ev.status[a]? = none → ev.dependencies.dependantsOf a = []

/-- Unless a failure goes down the stack, each cell on it has been asked for by the one below
alone. -/
def Run.IsLinked (r : Run) : Prop :=
  r.evaluator.IsUnasked ∧
    match r.phase with
    | .running .. | .returning (.ok _) _ => r.evaluator.dependencies.Chains r.phase.stack
    | .returning (.error _) _ | .aborted _ => True

namespace Evaluator

variable {ev ev' : Evaluator} {left : Address → Prop} {a c : Address} {below : List Frame}
  {o : Outcome}

/-- A cell that begins, or gets its outcome, may have been asked for. -/
theorem isUnasked_insert {st : Status} (hstatus : ev'.status = ev.status.insert c st)
    (hdependencies : ev'.dependencies = ev.dependencies)
    (h : ∀ a, a ≠ c → ev.status[a]? = none → ev.dependencies.dependantsOf a = []) :
    ev'.IsUnasked := by
  intro a ha
  rw [hstatus, Calculation.getElem?_insert] at ha
  split at ha
  · cases ha
  · rename_i hac
    rw [hdependencies]
    exact h a hac ha

theorem settle_isLinked (hunasked : ∀ a, a ≠ c → ev.status[a]? = none →
      ev.dependencies.dependantsOf a = [])
    (hchains : ∀ v, o = .ok v → ev.dependencies.Chains (below.map (·.cell))) :
    (ev.settle c o below).IsLinked := by
  refine ⟨isUnasked_insert rfl rfl hunasked, ?_⟩
  cases o with
  | ok v => exact hchains v rfl
  | error f => trivial

/-- A request keeps the dependencies of the stack. The cell that is asked for may have been asked
for already. -/
theorem RequestsTo.isLinked {r : Run} (h : ev.RequestsTo a below r)
    (hunasked : ∀ b, b ≠ a → ev.status[b]? = none → ev.dependencies.dependantsOf b = [])
    (hchains : ev.status[a]? ≠ some .inProgress → ev.dependencies.Chains (below.map (·.cell)))
    (hbegin : ev.status[a]? = none → ev.dependencies.Chains (a :: below.map (·.cell)))
    (hcontains : ev.grid.Contains a) : r.IsLinked := by
  -- If the cell has a status, it is none of those that have not begun.
  have hall : ev.status[a]? ≠ none → ev.IsUnasked := by
    intro ha b hb
    exact hunasked b (fun hba => ha (hba ▸ hb)) hb
  cases h with
  | @kept o hkept =>
    refine ⟨hall (by simp [hkept]), ?_⟩
    cases o with
    | ok v => exact hchains (by simp [hkept])
    | error f => trivial
  | refused hrefused => exact ⟨hall (by simp [hrefused]), trivial⟩
  | literal hnew | unreadable hnew =>
    exact settle_isLinked hunasked fun _ _ => hchains (by simp [hnew])
  | formula hnew => exact ⟨isUnasked_insert rfl rfl hunasked, hbegin hnew⟩
  | outside hnew hcell =>
    obtain ⟨cell, hcell'⟩ := Grid.exists_cell?_of_contains hcontains
    cases hcell.symm.trans hcell'

/-- Going on with the topmost formula keeps the dependencies of the stack. -/
theorem proceed_isLinked {p : Program Decimal}
    (hbusy : ev.IsBusyWith left (c :: below.map (·.cell))) (hunasked : ev.IsUnasked)
    (hchains : ev.dependencies.Chains (c :: below.map (·.cell)))
    (hcontains : ∀ a next, p = .ask a next → ev.grid.Contains a) :
    (ev.proceed c p below).IsLinked := by
  cases p with
  | done value => exact settle_isLinked (fun b _ => hunasked b) fun _ _ => hchains.tail
  | raise raised =>
    cases raised with
    | fault fault =>
      have hcounted : ev.countFailure.IsUnasked := hunasked
      exact settle_isLinked (fun b _ => hcounted b) (by rintro v ⟨⟩)
    | abort reason => exact ⟨hunasked, trivial⟩
  | ask a next =>
    -- The request adds a dependency on `a`, and no other.
    have hothers : ∀ b, b ≠ a →
        (ev.depend a c).dependencies.dependantsOf b = ev.dependencies.dependantsOf b :=
      fun b hb => Dependencies.dependantsOf_record.trans (if_neg hb)
    have hstack : ∀ hne : ev.status[a]? ≠ some .inProgress,
        (ev.depend a c).dependencies.Chains (c :: below.map (·.cell)) := by
      intro hne
      refine hchains.congr fun b hb => hothers b ?_
      rintro rfl
      exact hne (hbusy.inProgress_of_mem hb)
    refine (requestsTo_request (ev.depend a c) a _).isLinked ?_ hstack ?_ (hcontains a next rfl)
    · intro b hb hnew
      rw [hothers b hb]
      exact hunasked b hnew
    · -- a cell that begins has been asked for by `c` alone
      intro hnew
      refine (hstack ?_).cons ?_
      · rw [show ev.status[a]? = none from hnew]
        simp
      · refine Dependencies.dependantsOf_record.trans ?_
        rw [if_pos rfl, hunasked a hnew]
        rfl

end Evaluator

namespace Run

variable {s : Calculation} {left : Address → Prop} {target : Address} {n : Nat} {r : Run}
  {a c : Address}

/-! ## Requests of the topmost formula -/

/-- In the next turn the formula of the cell `c` goes on and asks for the cell `a`. -/
inductive Asks : Run → Address → Address → Prop
  | running {ev : Evaluator} {c a : Address} {next : Decimal → Program Decimal}
    {below : List Frame} : Asks ⟨ev, .running c (.ask a next) below⟩ c a
  | returning {ev : Evaluator} {frame : Frame} {v : Decimal} {a : Address}
    {next : Decimal → Program Decimal} {below : List Frame} (h : frame.next v = .ask a next) :
    Asks ⟨ev, .returning (.ok v) (frame :: below)⟩ frame.cell a

/-- The request is for a cell inside of the grid to which the cell that asks refers. -/
theorem IsOrderly.request_of_asks (h : r.IsOrderly s left target n) (hasks : r.Asks c a) :
    s.RefersTo c a ∧ s.grid.Contains a ∧ ∃ next below, r.phase.stack = c :: below.map (·.cell) ∧
      r.turn = (r.evaluator.depend a c).request a (⟨c, next⟩ :: below) := by
  cases hasks with
  | @running ev c a next below =>
    obtain ⟨-, k, m, hcontinues, -⟩ := h
    exact ⟨hcontinues.refersTo, hcontinues.contains, next, below, rfl, rfl⟩
  | @returning ev frame v a next below hnext =>
    obtain ⟨-, b, m, hgives, hawaits, -⟩ := h
    cases hawaits with
    | cons hcontinues =>
      have hcontinues' := hcontinues.of_ask hgives.number?_eq_some
      rw [hnext] at hcontinues'
      refine ⟨hcontinues'.refersTo, hcontinues'.contains, next, below, rfl, ?_⟩
      exact congrArg (ev.proceed frame.cell · below) hnext

/-- A turn keeps the dependencies of the stack. -/
theorem IsLinked.turn (hr : r.IsOrderly s left target n) (h : r.IsLinked) : r.turn.IsLinked := by
  obtain ⟨ev, phase⟩ := r
  obtain ⟨rfl, hphase⟩ := hr
  obtain ⟨hunasked, hchains⟩ := h
  cases phase with
  | running c p below =>
    obtain ⟨k, m, hcontinues, -, hbusy, -⟩ := hphase
    refine Evaluator.proceed_isLinked hbusy hunasked hchains fun a next hp => ?_
    exact (hp ▸ hcontinues).contains
  | returning o below =>
    obtain ⟨a, m, hgives, hawaits, hbusy, -⟩ := hphase
    cases hawaits with
    | nil => cases o <;> exact ⟨hunasked, hchains⟩
    | cons hcontinues =>
      cases o with
      | ok v =>
        refine Evaluator.proceed_isLinked hbusy hunasked hchains fun b next hp => ?_
        exact (hp ▸ hcontinues.of_ask hgives.number?_eq_some).contains
      | error f => exact Evaluator.settle_isLinked (fun b _ => hunasked b) (by rintro v ⟨⟩)
  | aborted reason => exact ⟨hunasked, trivial⟩

theorem Asks.not_isOver (hasks : r.Asks c a) : ¬r.IsOver := by
  cases hasks <;> exact id

theorem IsLinked.chains_of_asks (h : r.IsLinked) (hasks : r.Asks c a) :
    r.evaluator.dependencies.Chains r.phase.stack := by
  cases hasks with
  | running => exact h.2
  | returning => exact h.2

/-- The failure of a refused request tells the part of the stack from the cell up, which is a cycle,
and goes down the whole stack. -/
theorem IsOrderly.refuses (hr : r.IsOrderly s left target n) (hlinked : r.IsLinked)
    (hbusy : r.evaluator.IsBusyWith left r.phase.stack) (hasks : r.Asks c a)
    (ha : a ∈ r.phase.stack) :
    ∃ upper lower below, r.phase.stack = upper ++ a :: lower ∧
      (upper ++ [a]).head? = some c ∧ s.IsCycle (a :: upper) ∧
      r.turn.phase = .returning
        (.error (r.evaluator.nextFailure (.circular a (a :: upper)) a)) below ∧
      below.map (·.cell) = r.phase.stack := by
  obtain ⟨hrefers, -, next, below, hstack, hturn⟩ := hr.request_of_asks hasks
  -- The stack splits at the cell.
  obtain ⟨upper, lower, hsplit, -⟩ := List.eq_append_cons_of_mem ha
  have hhead : (upper ++ [a]).head? = some c := by
    rw [hsplit] at hstack
    cases upper <;> simp_all
  have hnodup : (upper ++ a :: lower).Nodup := hsplit ▸ hbusy.nodup
  have hcycle : (r.evaluator.depend a c).dependencies.findCycle a = a :: upper :=
    Dependencies.findCycle_record (hsplit ▸ hlinked.chains_of_asks hasks) hnodup hhead
  have hrefused : (r.evaluator.depend a c).request a (⟨c, next⟩ :: below) =
      (r.evaluator.depend a c).refuseCircular a (⟨c, next⟩ :: below) :=
    Evaluator.request_of_inProgress (hbusy.inProgress_of_mem ha)
  refine ⟨upper, lower, ⟨c, next⟩ :: below, hsplit, hhead, ⟨?_, ?_⟩, ?_, hstack.symm⟩
  · rw [List.append_cons] at hnodup
    exact (List.perm_append_singleton a upper).nodup_iff.1 hnodup.of_append_left
  · -- Down the stack each cell refers to the one above, and the topmost one refers to `a`.
    have hchain := (List.isChain_split.1 (hsplit ▸ hr.isChain_stack)).1
    refine List.isChain_cons.2 ⟨fun b hb => ?_, hchain.imp fun x y hxy => ?_⟩
    · obtain rfl := Option.some.inj (hhead.symm.trans hb)
      exact hrefers
    · exact hr.1 ▸ hxy.refersTo
  · rw [hturn, hrefused, Evaluator.refuseCircular, hcycle]
    rfl

end Run

/-! ## Moments -/

namespace Moment

/-- Cells that have not begun have not been asked for, and the dependencies of the stack are those
of its cells alone. -/
def IsLinked : Moment → Prop
  | idle ev => ev.IsUnasked
  | busy r => r.IsLinked

/-- The failure is kept for the cell, or it goes down the stack on which the cell lies. -/
def Fails (f : Failure) (a : Address) (m : Moment) : Prop :=
  m.evaluator.outcome? a = some (.error f) ∨
    ∃ r below, m = busy r ∧ r.phase = .returning (.error f) below ∧ a ∈ r.phase.stack

variable {kinds : List Kind} {kind : Kind} {m m' : Moment} {s : Calculation}
  {left : Address → Prop} {f : Failure} {a : Address}

theorem Step.isLinked (h : Step kind m m') (hm : m.IsOrderly s left) (hlinked : m.IsLinked) :
    m'.IsLinked := by
  cases h with
  | @begin ev a ha =>
    refine (ev.requestsTo_request a []).isLinked (fun b _ => hlinked b) (fun _ => ?_) ?_ ha
    · exact Dependencies.chains_nil
    · exact fun hnew => Dependencies.chains_singleton (hlinked a hnew)
  | turn =>
    obtain ⟨-, target, n, hr⟩ := hm
    exact hlinked.turn hr
  | giveUp =>
    obtain ⟨-, target, n, hr⟩ := hm
    exact (hlinked.turn hr).1
  | finish => exact hlinked.1
  | tell | register => exact hlinked

/-- A failure on its way down the stack is kept for each cell that it comes to. -/
theorem Step.fails (h : Step kind m m') (hm : m.IsOrderly s left) (hfails : m.Fails f a) :
    m'.Fails f a := by
  rcases hfails with hkept | ⟨⟨ev, phase⟩, below, rfl, hphase, ha⟩
  · exact .inl ((h.advances hm).outcome?_eq hkept)
  · obtain rfl : phase = .returning (.error f) below := hphase
    cases below with
    | nil => cases ha
    | cons frame below =>
      cases h with
      | turn hover hkept =>
        -- The cell is the topmost one, or it lies below.
        rcases List.mem_cons.1 ha with rfl | ha
        · exact .inl Evaluator.outcome?_keep
        · exact .inr ⟨_, below, rfl, rfl, ha⟩
      | giveUp hover hgiven =>
        obtain ⟨reason, hreason⟩ := hgiven
        cases hreason

/-- An idle evaluator has no failure on its way. -/
theorem Fails.outcome?_eq {ev : Evaluator} (h : (idle ev).Fails f a) :
    ev.outcome? a = some (.error f) := by
  rcases h with hkept | ⟨r, -, ⟨⟩, -⟩
  exact hkept

/-- A turn that hands on an outcome does not give the evaluation up. -/
theorem Step.of_returning {r : Run} {o : Outcome} {below : List Frame} (hover : ¬r.IsOver)
    (h : r.turn.phase = .returning o below) : Step .evaluation (busy r) (busy r.turn) := by
  refine .turn hover ?_
  rintro ⟨reason, hreason⟩
  cases h.symm.trans hreason

/-- A failure comes to the end of the stack. -/
theorem exists_reaches_idle {r : Run} {below : List Frame}
    (hr : r.phase = .returning (.error f) below) :
    ∃ ev, (busy r).Reaches [.evaluation] (idle ev) := by
  induction below generalizing r with
  | nil =>
    obtain ⟨ev, phase⟩ := r
    obtain rfl : phase = .returning (.error f) [] := hr
    exact ⟨ev, Step.finish.reaches List.mem_cons_self⟩
  | cons frame below ih =>
    have hturn : r.turn.phase = .returning (.error f) below := by rw [Run.turn, hr]; rfl
    obtain ⟨ev, hreaches⟩ := ih hturn
    have hstep : Step .evaluation (busy r) (busy r.turn) := by
      refine .of_returning (fun hover => ?_) hturn
      rwa [Run.IsOver, hr] at hover
    exact ⟨ev, (hstep.reaches List.mem_cons_self).trans hreaches⟩

/-! ## Sessions -/

variable {kinds : List Kind} {table : RawValue} {marker : Option String}

theorem isLinked_start : (idle (.start s.grid s.functions s.scale)).IsLinked := by
  intro a _
  simp [Evaluator.start, Dependencies.dependantsOf, Dependencies.empty]

theorem Reaches.isLinked (hgrid : Grid.ofRaw table marker = .ok s.grid) (h : m.Reaches kinds m')
    (hm : m.IsOrderly s left) (hlinked : m.IsLinked) : m'.IsLinked :=
  h.induction hgrid hm hlinked fun _ _ _ _ _ _ _ horderly hstep => hstep.isLinked horderly

theorem Reaches.fails (hgrid : Grid.ofRaw table marker = .ok s.grid) (h : m.Reaches kinds m')
    (hm : m.IsOrderly s left) (hfails : m.Fails f a) : m'.Fails f a :=
  h.induction hgrid hm hfails fun _ _ _ _ _ _ _ horderly hstep => hstep.fails horderly

end Moment

namespace Evaluator

open Moment

variable {ev : Evaluator} {a : Address} {below : List Frame}

theorem request_of_formula {cell : Cell} {f : Formula} {tree : Expr}
    {references : Option (List Reference)} (hnew : ev.status[a]? = none)
    (hcell : ev.grid.cell? a = some cell) (hcontent : cell.content = .formula f tree references) :
    ev.request a below = ev.startFormula a f.source tree below := by
  unfold request
  split
  · simp_all
  · simp_all
  · rw [hcell]
    simp only [startCell, hcontent]

/-- The cell that is refused, and the cycle that is told. -/
def reported? : Except Raised Outcome → Option (Address × List Address)
  | .ok (.error ⟨.circular a cycle, _, _⟩) => some (a, cycle)
  | _ => none

theorem exists_of_reported? {x : Except Raised Outcome} {cycle : List Address}
    (h : reported? x = some (a, cycle)) :
    ∃ f, x = .ok (.error f) ∧ f.fault = .circular a cycle := by
  unfold reported? at h
  split at h
  · cases h
    exact ⟨_, rfl, rfl⟩
  · cases h

/-- Where nothing gives up, calls are answered by steps of evaluations, and after such steps no cell
is in progress unless it is on the stack. A formula that asks for a cell in progress gets a new
failure, whose cycle is the part of the stack from the cell up. Each cell of the cycle is referred
to by the next one, and in the end this failure is kept for all of them. -/
theorem circular_references {s : Calculation} {table : RawValue} {marker : Option String}
    (hgrid : Grid.ofRaw table marker = .ok s.grid) :
    let ev := start s.grid s.functions s.scale
    (s.NeverAborts → ∀ calls, (idle ev).Reaches [.evaluation] (idle (ev.after calls))) ∧
      (∀ ev', (idle ev).Reaches [.evaluation] (idle ev') → ∀ a, ev'.state a ≠ .inProgress) ∧
        ∀ r c a, (idle ev).Reaches [.evaluation] (busy r) → r.Asks c a →
          r.evaluator.state a = .inProgress →
            ∃ upper lower f below, r.phase.stack = upper ++ a :: lower ∧
              (upper ++ [a]).head? = some c ∧ r.turn.phase = .returning (.error f) below ∧
              f.fault = .circular a (a :: upper) ∧ f.origin = a ∧ ¬r.Bears f ∧
              s.IsCycle (a :: upper) ∧
              (∃ ev', (busy r.turn).Reaches [.evaluation] (idle ev')) ∧
              ∀ kinds ev', (busy r.turn).Reaches kinds (idle ev') →
                ∀ b ∈ a :: upper, ev'.outcome? b = some (.error f) := by
  intro ev
  have hstart : (idle ev).IsOrderly s fun _ => False := isOrderly_start
  refine ⟨fun hsafe => hstart.reaches_after hgrid hsafe, fun ev' hreaches a ha => ?_, ?_⟩
  · obtain ⟨s', left', hkeeps, horderly, -⟩ := hreaches.isOrderly hgrid hstart
    obtain rfl := hkeeps.left_eq (by decide)
    have hmem := (horderly.isStacked.inProgress_iff a).1 ha
    cases hmem
  intro r c a hreaches hasks ha
  obtain ⟨s', left', hkeeps, horderly, -⟩ := hreaches.isOrderly hgrid hstart
  obtain rfl := hkeeps.left_eq (by decide)
  obtain rfl := hkeeps.eq (by decide)
  have hlinked : (busy r).IsLinked := hreaches.isLinked hgrid hstart isLinked_start
  have hmem : a ∈ r.phase.stack := (horderly.isStacked.inProgress_iff a).1 ha
  obtain ⟨hkept, target, n, hr⟩ := horderly
  obtain ⟨upper, lower, below, hsplit, hhead, hcycle, hturn, hbelow⟩ :=
    hr.refuses hlinked (hr.isBusyWith_stack hkept) hasks hmem
  have hstep : Step .evaluation (busy r) (busy r.turn) := .of_returning hasks.not_isOver hturn
  refine ⟨upper, lower, r.evaluator.nextFailure (.circular a (a :: upper)) a, below, hsplit, hhead,
    hturn, rfl, rfl, ?_, hcycle, exists_reaches_idle hturn, fun kinds ev' hlater b hb => ?_⟩
  · -- the number of the failure is higher than all before
    intro hbears
    have hnumbered := (hreaches.isNumbered isNumbered_start).1
    exact Nat.lt_irrefl _ (hnumbered.lt _ _ hbears rfl)
  · have hfails : (busy r.turn).Fails (r.evaluator.nextFailure (.circular a (a :: upper)) a) b := by
      refine .inr ⟨r.turn, below, rfl, hturn, ?_⟩
      rw [hturn, Phase.stack]
      rw [hbelow, hsplit]
      rcases List.mem_cons.1 hb with rfl | hb
      · simp
      · exact List.mem_append_left _ hb
    obtain ⟨s'', left'', hkeeps', horderly', -⟩ :=
      (hreaches.trans (hstep.reaches List.mem_cons_self)).isOrderly hgrid hstart
    exact (hlater.fails (hkeeps'.grid_eq ▸ hgrid) horderly' hfails).outcome?_eq

/-- The formula of the left cell asks for the right cell, whose formula asks for the left one and so
closes the cycle. Both cells get one failure. -/
theorem circular_references_twoCycle :
    ∃ r f ev, (idle (start Grid.twoCycle .standard 28)).Reaches [.evaluation] (busy r) ∧
      r.Asks ⟨0, 1⟩ ⟨0, 0⟩ ∧ f.fault = .circular ⟨0, 0⟩ [⟨0, 0⟩, ⟨0, 1⟩] ∧
      (busy r.turn).Reaches [.evaluation] (idle ev) ∧
      ev.outcome? ⟨0, 0⟩ = some (.error f) ∧ ev.outcome? ⟨0, 1⟩ = some (.error f) := by
  -- The first two steps start the formulas of both cells.
  let ev := start Grid.twoCycle .standard 28
  have hleft : ev.request ⟨0, 0⟩ [] = ev.startFormula ⟨0, 0⟩ "=B1" (.cell ⟨0, 1⟩) [] :=
    request_of_formula (f := ⟨"=B1", _⟩) Std.TreeMap.getElem?_emptyc Grid.cell?_twoCycle_left rfl
  let r := ev.startFormula ⟨0, 0⟩ "=B1" (.cell ⟨0, 1⟩) []
  have hright : (r.evaluator.depend ⟨0, 1⟩ ⟨0, 0⟩).request ⟨0, 1⟩ [⟨⟨0, 0⟩, .done⟩] =
      (r.evaluator.depend ⟨0, 1⟩ ⟨0, 0⟩).startFormula ⟨0, 1⟩ "=A1" (.cell ⟨0, 0⟩)
        [⟨⟨0, 0⟩, .done⟩] :=
    request_of_formula (f := ⟨"=A1", some "="⟩) (by decide) Grid.cell?_twoCycle_right rfl
  replace hright : r.turn = _ := hright
  have hbegin : Step .evaluation (idle ev) (busy (ev.request ⟨0, 0⟩ [])) := .begin (by decide)
  rw [hleft] at hbegin
  have hturn : Step .evaluation (busy r) (busy r.turn) := by
    refine .turn id ?_
    rw [hright]
    rintro ⟨reason, ⟨⟩⟩
  have hreaches : (idle ev).Reaches [.evaluation] (busy r.turn) :=
    (hbegin.reaches List.mem_cons_self).trans (hturn.reaches List.mem_cons_self)
  have hasks : r.turn.Asks ⟨0, 1⟩ ⟨0, 0⟩ := hright ▸ .running
  have hinProgress : r.turn.evaluator.state ⟨0, 0⟩ = .inProgress := by rw [hright]; rfl
  obtain ⟨-, -, hrefused⟩ := circular_references (s := .twoCycle) Grid.ofRaw_twoCycleTable
  obtain ⟨upper, lower, f, below, hstack, hhead, -, hfault, -, -, -, ⟨ev', hidle⟩, hfailed⟩ :=
    hrefused r.turn _ _ hreaches hasks hinProgress
  -- Only the right cell stands above the left one.
  have hupper : upper = [⟨0, 1⟩] := by
    rw [hright] at hstack
    change [⟨0, 1⟩, ⟨0, 0⟩] = upper ++ ⟨0, 0⟩ :: lower at hstack
    match upper with
    | [] | [_] | _ :: _ :: _ => simp_all
  subst hupper
  exact ⟨r.turn, f, ev', hreaches, hasks, hfault, hidle, hfailed _ ev' hidle _ (by simp),
    hfailed _ ev' hidle _ (by simp)⟩

/-- A cell that a division has left in progress is refused although it lies on no cycle, and the
cycle that is told is empty. -/
theorem circular_references_large :
    let s : Calculation := ⟨Grid.large, .standard, -1⟩
    let ev := start s.grid s.functions s.scale
    Grid.ofRaw Grid.largeTable (some "=") = .ok s.grid ∧ s.functions.NeverAborts ∧
      ∃ f, ((ev.after [.one ⟨0, 1⟩]).evaluate ⟨0, 0⟩).2 = .ok (.error f) ∧
        f.fault = .circular ⟨0, 1⟩ [] := by
  intro s ev
  refine ⟨Grid.ofRaw_largeTable, Registry.neverAborts_standard, exists_of_reported? ?_⟩
  decide +kernel

end Evaluator

end DecimalSheet
