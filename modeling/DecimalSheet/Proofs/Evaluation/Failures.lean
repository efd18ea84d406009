import DecimalSheet.Proofs.Evaluation.Sessions

/-!
# Failures of a session

A failure that arises during an evaluation gets a number, and no other failure ever gets the same
one. So a failure can be followed through a session: wherever its number turns up again, at this
moment or later, it is the same failure with the same fault and the same origin.

## Main definitions

* `Evaluator.HasKept ev f`: the failure is kept for a cell
* `Moment.Bears m f`: the failure is kept for a cell, or it is being handed on
* `Moment.IsNumbered m`: the numbers of failures have been given out, each only once

## Main results

* `Moment.Step.adds`: a step adds at most one failure with a number, which is the next one
* `Moment.Reaches.eq_of_occurrence_eq`: failures with the same number are the same
-/

namespace DecimalSheet

/-- The failure is kept for a cell. -/
def Evaluator.HasKept (ev : Evaluator) (f : Failure) : Prop :=
  ∃ a, ev.outcome? a = some (.error f)

/-- The failure is kept for a cell, or the formulas that wait are about to get it. -/
def Run.Bears (r : Run) (f : Failure) : Prop :=
  r.evaluator.HasKept f ∨ ∃ below, r.phase = .returning (.error f) below

/-- With `count` numbers given out before and `count'` afterwards, the failures `after` are those
`before` and failures that were built with the grid, apart from at most one, which has got the next
number. -/
def Failure.Adds (count : Nat) (before : Failure → Prop) (count' : Nat) (after : Failure → Prop) :
    Prop :=
  count ≤ count' ∧ ∃ new : Failure, new.occurrence = .evaluation count ∧ ∀ f, after f →
    before f ∨ f.occurrence = .construction ∨ f = new ∧ count < count'

theorem Failure.adds_of_forall {count count' : Nat} {before after : Failure → Prop}
    (hcount : count ≤ count') (h : ∀ f, after f → before f ∨ f.occurrence = .construction) :
    Failure.Adds count before count' after :=
  ⟨hcount, ⟨.divisionByZero, ⟨0, 0⟩, .evaluation count⟩, rfl, fun f hf => (h f hf).imp_right .inl⟩

/-- What the failures of a run are, compared with those before. -/
def Run.Adds (ev : Evaluator) (before : Failure → Prop) (r : Run) : Prop :=
  Failure.Adds ev.failureCount before r.evaluator.failureCount r.Bears

namespace Evaluator

variable {ev ev' : Evaluator} {a c : Address} {o : Outcome} {f : Failure} {below : List Frame}
  {before : Failure → Prop}

theorem outcome?_congr (h : ev'.status = ev.status) : ev'.outcome? = ev.outcome? := by
  funext a
  rw [outcome?, outcome?, h]

theorem HasKept.congr (h : ev.HasKept f) (hstatus : ev'.status = ev.status) : ev'.HasKept f := by
  rwa [HasKept, outcome?_congr hstatus]

/-- A new status of one cell that is no outcome, or the outcome of that cell. -/
theorem outcome?_of_insert {st : Status} (h : ev'.outcome? a = some o)
    (hstatus : ev'.status = ev.status.insert c st) :
    ev.outcome? a = some o ∨ a = c ∧ st = .finished o := by
  rw [outcome?_eq_some_iff, hstatus, Calculation.getElem?_insert] at h
  split at h
  · rename_i hac
    exact .inr ⟨hac, Option.some.inj h⟩
  · exact .inl (outcome?_eq_some_iff.2 h)

/-- A new status of one cell adds at most the failure in it. -/
theorem HasKept.of_insert {st : Status} (h : ev'.HasKept f)
    (hstatus : ev'.status = ev.status.insert c st) :
    ev.HasKept f ∨ st = .finished (.error f) := by
  obtain ⟨a, ha⟩ := h
  exact (outcome?_of_insert ha hstatus).imp (fun ha => ⟨a, ha⟩) And.right

/-- A cell gets its outcome, which is handed on. -/
theorem settle_adds (h : ∀ f, o = .error f → before f ∨ f.occurrence = .construction)
    (hold : ∀ f, ev.HasKept f → before f) : (ev.settle c o below).Adds ev before := by
  refine Failure.adds_of_forall (Nat.le_refl _) fun f hf => ?_
  rcases hf with hkept | ⟨below', hphase⟩
  · rcases hkept.of_insert rfl with hkept | hst
    · exact .inl (hold f hkept)
    · exact h f (by cases hst; rfl)
  · exact h f (by cases hphase; rfl)

/-- A new failure with a number is handed on. -/
theorem refuse_adds {fault : Fault} (hold : ∀ f, ev.HasKept f → before f) :
    (ev.refuse c fault below).Adds ev before := by
  refine ⟨Nat.le_succ _, ev.nextFailure fault c, rfl, fun f hf => ?_⟩
  rcases hf with hkept | ⟨below', hphase⟩
  · exact .inl (hold f (hkept.congr rfl))
  · obtain rfl : ev.nextFailure fault c = f := by cases hphase; rfl
    exact .inr (.inr ⟨rfl, Nat.lt_succ_self _⟩)

/-- A new failure with a number is kept and handed on. -/
theorem settleFault_adds {fault : Fault} (hold : ∀ f, ev.HasKept f → before f) :
    (ev.settleFault c fault below).Adds ev before := by
  refine ⟨Nat.le_succ _, ev.nextFailure fault c, rfl, fun f hf => ?_⟩
  have hnew : ∀ f, f = ev.nextFailure fault c → f = ev.nextFailure fault c ∧
      ev.failureCount < (ev.settleFault c fault below).evaluator.failureCount :=
    fun f hf => ⟨hf, Nat.lt_succ_self _⟩
  rcases hf with hkept | ⟨below', hphase⟩
  · have hcases : ev.HasKept f ∨ _ := hkept.of_insert rfl
    rcases hcases with hkept | hst
    · exact .inl (hold f hkept)
    · exact .inr (.inr (hnew f (by cases hst; rfl)))
  · exact .inr (.inr (hnew f (by cases hphase; rfl)))

theorem RequestsTo.adds {r : Run} (h : ev.RequestsTo a below r)
    (hold : ∀ f, ev.HasKept f → before f) : r.Adds ev before := by
  cases h with
  | @kept o hkept =>
    refine Failure.adds_of_forall (Nat.le_refl _) fun f hf => ?_
    rcases hf with hf | ⟨below', hphase⟩
    · exact .inl (hold f hf)
    · -- what is handed on is kept for the cell
      obtain rfl : o = .error f := by cases hphase; rfl
      exact .inl (hold f ⟨a, outcome?_eq_some_iff.2 hkept⟩)
  | refused =>
    have hnoted : ∀ f, (ev.note (.circular (ev.dependencies.findCycle a))).HasKept f → before f :=
      fun f hf => hold f (hf.congr rfl)
    exact refuse_adds hnoted
  | literal => exact settle_adds (by rintro f ⟨⟩) hold
  | unreadable =>
    refine settle_adds (fun f hf => .inr ?_) hold
    cases hf
    rfl
  | formula =>
    refine Failure.adds_of_forall (Nat.le_refl _) fun f hf => ?_
    rcases hf with hkept | ⟨below', hphase⟩
    · exact .inl (hold f ((hkept.of_insert rfl).resolve_right (by rintro ⟨⟩)))
    · cases hphase
  | outside => exact refuse_adds hold

theorem proceed_adds {p : Program Decimal} (hold : ∀ f, ev.HasKept f → before f) :
    (ev.proceed c p below).Adds ev before := by
  cases p with
  | done value => exact settle_adds (by rintro f ⟨⟩) hold
  | raise raised =>
    cases raised with
    | fault fault => exact settleFault_adds hold
    | abort reason =>
      refine Failure.adds_of_forall (Nat.le_refl _) fun f hf => ?_
      rcases hf with hkept | ⟨below', hphase⟩
      · exact .inl (hold f hkept)
      · cases hphase
  | ask a next =>
    exact (requestsTo_request (ev.depend a c) a _).adds fun f hf => hold f (hf.congr rfl)

end Evaluator

namespace Run

/-- A turn adds at most one failure with a number, which is the next one. -/
theorem adds_turn (r : Run) : r.turn.Adds r.evaluator r.Bears := by
  have hold : ∀ f, r.evaluator.HasKept f → r.Bears f := fun f => .inl
  obtain ⟨ev, phase⟩ := r
  -- A run that is over stays as it is.
  have hover : (⟨ev, phase⟩ : Run).Adds ev (Bears ⟨ev, phase⟩) :=
    Failure.adds_of_forall (Nat.le_refl _) fun f hf => .inl hf
  cases phase with
  | running c p below => exact Evaluator.proceed_adds hold
  | returning o below =>
    cases below with
    | nil => cases o <;> exact hover
    | cons frame below =>
      cases o with
      | ok v => exact Evaluator.proceed_adds hold
      | error f =>
        refine Evaluator.settle_adds (fun f' hf' => .inl ?_) hold
        cases hf'
        exact .inr ⟨_, rfl⟩
  | aborted reason => exact hover

end Run

namespace Moment

/-- The failure is kept for a cell, or the formulas that wait are about to get it. -/
def Bears : Moment → Failure → Prop
  | idle ev => ev.HasKept
  | busy r => r.Bears

/-- The failures that the moment bears have numbers that have been given out, and different ones
have different numbers. -/
structure IsNumbered (m : Moment) : Prop where
  lt : ∀ f n, m.Bears f → f.occurrence = .evaluation n → n < m.evaluator.failureCount
  eq_of_occurrence_eq : ∀ f f' n, m.Bears f → m.Bears f' → f.occurrence = .evaluation n →
    f'.occurrence = .evaluation n → f = f'

variable {kinds : List Kind} {kind : Kind} {m m' : Moment} {s : Calculation} {f f' : Failure}
  {n : Nat}

theorem isNumbered_start : (idle (.start s.grid s.functions s.scale)).IsNumbered := by
  have hnone : ∀ f, ¬(idle (.start s.grid s.functions s.scale)).Bears f := by
    rintro f ⟨a, ha⟩
    rw [Evaluator.outcome?_eq_some_iff] at ha
    simp [Evaluator.start] at ha
  exact ⟨fun f n hf => absurd hf (hnone f), fun f f' n hf => absurd hf (hnone f)⟩

/-- A step adds at most one failure with a number, which is the next one. -/
theorem Step.adds (h : Step kind m m') :
    Failure.Adds m.evaluator.failureCount m.Bears m'.evaluator.failureCount m'.Bears := by
  cases h with
  | begin => exact (Evaluator.requestsTo_request _ _ _).adds fun f => id
  | @turn r => exact r.adds_turn
  | finish => exact Failure.adds_of_forall (Nat.le_refl _) fun f hf => .inl (.inl hf)
  | tell => exact Failure.adds_of_forall (Nat.le_refl _) fun f hf => .inl (hf.congr rfl)
  | @giveUp r =>
    obtain ⟨hcount, new, hnew, hadds⟩ := r.adds_turn
    exact ⟨hcount, new, hnew, fun f hf => hadds f (.inl hf)⟩
  | register => exact Failure.adds_of_forall (Nat.le_refl _) fun f hf => .inl (hf.congr rfl)

theorem Step.isNumbered (h : Step kind m m') (hm : m.IsNumbered) : m'.IsNumbered := by
  obtain ⟨hcount, new, hnew, hadds⟩ := h.adds
  -- A failure with a number is an older one with a lower number, or the new one.
  have hcases : ∀ f n, m'.Bears f → f.occurrence = .evaluation n →
      m.Bears f ∧ n < m.evaluator.failureCount ∨
        f = new ∧ n = m.evaluator.failureCount ∧ n < m'.evaluator.failureCount := by
    intro f n hf hn
    rcases hadds f hf with hold | hbuilt | ⟨rfl, hlt⟩
    · exact .inl ⟨hold, hm.lt f n hold hn⟩
    · cases hbuilt.symm.trans hn
    · cases hnew.symm.trans hn
      exact .inr ⟨rfl, rfl, hlt⟩
  constructor
  · intro f n hf hn
    rcases hcases f n hf hn with ⟨-, hlt⟩ | ⟨-, -, hlt⟩ <;> omega
  · intro f f' n hf hf' hn hn'
    rcases hcases f n hf hn with ⟨hold, hlt⟩ | ⟨rfl, rfl, -⟩ <;>
      rcases hcases f' _ hf' hn' with ⟨hold', hlt'⟩ | ⟨rfl, heq, -⟩
    · exact hm.eq_of_occurrence_eq f f' n hold hold' hn hn'
    · omega
    · omega
    · rfl

/-- Numbers that have been given out are never given to other failures. -/
theorem Reaches.isNumbered (h : m.Reaches kinds m') (hm : m.IsNumbered) :
    m'.IsNumbered ∧ m.evaluator.failureCount ≤ m'.evaluator.failureCount ∧
      ∀ f n, m'.Bears f → f.occurrence = .evaluation n → n < m.evaluator.failureCount →
        m.Bears f := by
  induction h with
  | refl => exact ⟨hm, Nat.le_refl _, fun f n hf _ _ => hf⟩
  | tail _ hstep ih =>
    obtain ⟨hnumbered, hcount, holder⟩ := ih
    obtain ⟨kind, -, hstep⟩ := hstep
    obtain ⟨hcount', new, hnew, hadds⟩ := hstep.adds
    refine ⟨hstep.isNumbered hnumbered, hcount.trans hcount', fun f n hf hn hlt => ?_⟩
    rcases hadds f hf with hold | hbuilt | ⟨rfl, -⟩
    · exact holder f n hold hn hlt
    · cases hbuilt.symm.trans hn
    · -- the number of the new failure is too large
      cases hnew.symm.trans hn
      omega

/-- A failure with a number that turns up again is the same failure. -/
theorem Reaches.eq_of_occurrence_eq (h : m.Reaches kinds m') (hm : m.IsNumbered) (hf : m.Bears f)
    (hf' : m'.Bears f') (hn : f.occurrence = .evaluation n) (hn' : f'.occurrence = .evaluation n) :
    f' = f :=
  hm.eq_of_occurrence_eq f' f n ((h.isNumbered hm).2.2 f' n hf' hn' (hm.lt f n hf hn)) hf hn' hn

end Moment

end DecimalSheet
