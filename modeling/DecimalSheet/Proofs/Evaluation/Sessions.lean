import DecimalSheet.Evaluation.ValueTree
import DecimalSheet.Proofs.Evaluation.Calls
import DecimalSheet.Proofs.Evaluation.Stack

/-!
# Sessions

In a session an evaluator is asked for outcomes and for value trees, and its functions are replaced,
in any order. It goes from one moment to the next by small steps, among them the turns of its
evaluations, so what is true of all moments is true in the middle of an evaluation also.

The state of a cell only ever advances, and what is kept of it stays, whatever happens. The cells in
progress are exactly those on the stack until an evaluation is given up, which leaves cells behind.

## Main definitions

* `Moment`, `Moment.Step`: what an evaluator is doing, and what it may do next
* `Moment.Reaches kinds m m'`: steps of some kinds lead from one moment to another
* `Moment.IsOrderly s left m`: the invariant of a session
* `Operation`, `Evaluator.perform`, `Evaluator.afterAll`: what may be done in a session

## Main results

* `Moment.Reaches.isOrderly`: steps keep the invariant
* `Evaluator.reaches_afterAll`: whatever is done in a session is done by steps
* `Evaluator.moments_of_session`: what is true of all moments of a session
-/

namespace DecimalSheet

/-- What an evaluator is doing: nothing, or the evaluation of a cell. -/
inductive Moment where
  | idle (ev : Evaluator)
  | busy (r : Run)

namespace Moment

def evaluator : Moment → Evaluator
  | idle ev => ev
  | busy r => r.evaluator

/-- The cells whose formulas run or wait, the topmost one first. -/
def stack : Moment → List Address
  | idle _ => []
  | busy r => r.phase.stack

end Moment

/-- The evaluator with a function under a name, in place of any other. -/
def Evaluator.register (ev : Evaluator) (name : String) (f : GridFunction)
    (refusesEmpty : Option Bool) : Evaluator :=
  { ev with functions := ev.functions.register name f refusesEmpty }

namespace Moment

/-! ## Steps -/

/-- What a step belongs to: to an evaluation, to its end before it has come to an outcome, or to the
registration of a function. -/
inductive Kind where
  | evaluation
  | abandonment
  | registration
deriving DecidableEq

/-- What an evaluator may do next. -/
inductive Step : Kind → Moment → Moment → Prop
  /-- The evaluation of a cell begins. -/
  | begin {ev : Evaluator} {a : Address} (ha : ev.grid.Contains a) :
    Step .evaluation (idle ev) (busy (ev.request a []))
  | turn {r : Run} (hover : ¬r.IsOver) (hkept : ¬r.turn.IsGivenUp) :
    Step .evaluation (busy r) (busy r.turn)
  /-- No cell waits for the outcome. -/
  | finish {ev : Evaluator} {o : Outcome} : Step .evaluation (busy ⟨ev, .returning o []⟩) (idle ev)
  /-- All cells have been evaluated, which is told. -/
  | tell {ev : Evaluator} {values : List (List Outcome)} :
    Step .evaluation (idle ev) (idle (ev.note (ev.completedEvent values)))
  /-- A turn gives the evaluation up. -/
  | giveUp {r : Run} (hover : ¬r.IsOver) (hgiven : r.turn.IsGivenUp) :
    Step .abandonment (busy r) (idle r.turn.evaluator)
  | register {ev : Evaluator} {name : String} {f : GridFunction} {refusesEmpty : Option Bool} :
    Step .registration (idle ev) (idle (ev.register name f refusesEmpty))

/-- Steps of the given kinds lead from one moment to the other. -/
def Reaches (kinds : List Kind) : Moment → Moment → Prop :=
  Relation.ReflTransGen fun m m' => ∃ kind ∈ kinds, Step kind m m'

variable {kinds kinds' : List Kind} {kind : Kind} {m m' m'' : Moment}

theorem Step.reaches (h : Step kind m m') (hkind : kind ∈ kinds) : m.Reaches kinds m' :=
  .single ⟨kind, hkind, h⟩

theorem Reaches.trans (h : m.Reaches kinds m') (h' : m'.Reaches kinds m'') : m.Reaches kinds m'' :=
  Relation.ReflTransGen.trans h h'

theorem Reaches.mono (h : m.Reaches kinds m') (hkinds : kinds ⊆ kinds') : m.Reaches kinds' m' :=
  Relation.ReflTransGen.mono (fun _ _ ⟨kind, hkind, hstep⟩ => ⟨kind, hkinds hkind, hstep⟩) _ _ h

/-! ## The invariant -/

/-- The invariant of a session that carries out a calculation: the cells in progress are those on
the stack, apart from cells that were left behind. -/
def IsOrderly (s : Calculation) (left : Address → Prop) : Moment → Prop
  | idle ev => ev.calculation = s ∧ ev.IsBusyWith left []
  | busy r => ¬r.IsGivenUp ∧ ∃ target n, r.IsOrderly s left target n

/-- What steps of the given kinds keep: functions change only by registration, and cells are left
behind only when an evaluation is given up. -/
structure Keeps (kinds : List Kind) (s : Calculation) (left : Address → Prop) (s' : Calculation)
    (left' : Address → Prop) : Prop where
  grid_eq : s'.grid = s.grid
  eq : .registration ∉ kinds → s' = s
  left_mono : ∀ a, left a → left' a
  left_eq : .abandonment ∉ kinds → left' = left

variable {s s' s'' : Calculation} {left left' left'' : Address → Prop} {a : Address}

theorem Keeps.refl (kinds : List Kind) (s : Calculation) (left : Address → Prop) :
    Keeps kinds s left s left :=
  ⟨rfl, fun _ => rfl, fun _ => id, fun _ => rfl⟩

theorem Keeps.trans (h : Keeps kinds s left s' left') (h' : Keeps kinds s' left' s'' left'') :
    Keeps kinds s left s'' left'' where
  grid_eq := h'.grid_eq.trans h.grid_eq
  eq hkinds := (h'.eq hkinds).trans (h.eq hkinds)
  left_mono a ha := h'.left_mono a (h.left_mono a ha)
  left_eq hkinds := (h'.left_eq hkinds).trans (h.left_eq hkinds)

theorem isOrderly_start :
    (idle (.start s.grid s.functions s.scale)).IsOrderly s fun _ => False :=
  ⟨rfl, List.nodup_nil, List.forall_mem_nil _, by simp [Evaluator.start]⟩

theorem IsOrderly.grid_eq {ev : Evaluator} (h : (idle ev).IsOrderly s left) : ev.grid = s.grid :=
  congrArg Calculation.grid h.1

theorem not_isGivenUp_request {ev : Evaluator} {below : List Frame} :
    ¬(ev.request a below).IsGivenUp := by
  rintro ⟨reason, hreason⟩
  have hends := ev.requestsTo_request a below
  generalize ev.request a below = r at hends hreason
  cases hends <;> cases hreason

/-- A step keeps the invariant. -/
theorem Step.isOrderly (hproper : s.IsProper) (h : Step kind m m') (hm : m.IsOrderly s left) :
    ∃ s' left', Keeps [kind] s left s' left' ∧ m'.IsOrderly s' left' := by
  cases h with
  | @begin ev a ha =>
    obtain ⟨rfl, hbusy⟩ := hm
    refine ⟨_, left, .refl _ _ _, not_isGivenUp_request, a, ev.grid.turnBound, ?_⟩
    exact (ev.requestsTo_request a []).isOrderly hproper rfl ha .nil hbusy
      Calculation.pending_le_turnBound
  | turn hover hkept =>
    obtain ⟨-, target, n, hr⟩ := hm
    cases n with
    | zero => exact absurd hr.isOver hover
    | succ n => exact ⟨s, left, .refl _ _ _, hkept, target, n, hr.turn hproper hover⟩
  | finish =>
    obtain ⟨-, target, n, hs, a, m, -, -, hbusy, -⟩ := hm
    exact ⟨s, left, .refl _ _ _, hs, hbusy⟩
  | tell => exact ⟨s, left, .refl _ _ _, hm.1, hm.2.congr rfl⟩
  | @giveUp r hover hgiven =>
    obtain ⟨-, target, n, hr⟩ := hm
    cases n with
    | zero => exact absurd hr.isOver hover
    | succ n =>
      -- The cells that were on the stack are left behind.
      obtain ⟨reason, hreason⟩ := hgiven
      obtain ⟨hs, hphase⟩ := hr.turn hproper hover
      rw [hreason] at hphase
      obtain ⟨-, stack, -, hbusy⟩ := hphase
      refine ⟨s, _, ⟨rfl, fun _ => rfl, fun a ha => .inr ha, ?_⟩, hs, hbusy.leave⟩
      exact fun hkind => absurd List.mem_cons_self hkind
  | @register ev name f refusesEmpty =>
    obtain ⟨rfl, hbusy⟩ := hm
    refine ⟨(ev.register name f refusesEmpty).calculation, left, ?_, rfl, hbusy.congr rfl⟩
    exact ⟨rfl, fun hkind => absurd List.mem_cons_self hkind, fun _ => id, fun _ => rfl⟩

theorem Step.advances (h : Step kind m m') (hm : m.IsOrderly s left) :
    m.evaluator.Advances m'.evaluator := by
  cases h with
  | begin => exact Evaluator.advances_request
  | turn | giveUp =>
    obtain ⟨-, target, n, hr⟩ := hm
    exact hr.advances_turn
  | finish => exact .refl _
  | tell => exact Evaluator.advances_note fun _ => rfl
  | register => exact ⟨rfl, fun _ => .refl, fun _ _ => id, fun _ => .inl rfl⟩

theorem Keeps.mono (h : Keeps kinds s left s' left') (hkinds : kinds ⊆ kinds') :
    Keeps kinds' s left s' left' where
  grid_eq := h.grid_eq
  eq hkind := h.eq fun hmem => hkind (hkinds hmem)
  left_mono := h.left_mono
  left_eq hkind := h.left_eq fun hmem => hkind (hkinds hmem)

/-- Steps keep the invariant, and the evaluator only advances. -/
theorem Reaches.isOrderly {table : RawValue} {marker : Option String}
    (hgrid : Grid.ofRaw table marker = .ok s.grid) (h : m.Reaches kinds m')
    (hm : m.IsOrderly s left) :
    ∃ s' left', Keeps kinds s left s' left' ∧ m'.IsOrderly s' left' ∧
      m.evaluator.Advances m'.evaluator := by
  induction h with
  | refl => exact ⟨s, left, .refl _ _ _, hm, .refl _⟩
  | tail _ hstep ih =>
    obtain ⟨s', left', hkeeps, horderly, hadvances⟩ := ih
    obtain ⟨kind, hkind, hstep⟩ := hstep
    have hproper := Calculation.isProper_of_ofRaw (hkeeps.grid_eq ▸ hgrid)
    obtain ⟨s'', left'', hkeeps', horderly'⟩ := hstep.isOrderly hproper horderly
    exact ⟨s'', left'', hkeeps.trans (hkeeps'.mono (by simpa using hkind)), horderly',
      hadvances.trans (hstep.advances horderly)⟩

/-- What holds at one moment holds later if all steps keep it. -/
theorem Reaches.induction {P : Moment → Prop} {table : RawValue} {marker : Option String}
    (hgrid : Grid.ofRaw table marker = .ok s.grid) (h : m.Reaches kinds m')
    (hm : m.IsOrderly s left) (hP : P m)
    (hstep : ∀ kind ∈ kinds, ∀ m m' s' left', Keeps kinds s left s' left' →
      m.IsOrderly s' left' → Step kind m m' → P m → P m') : P m' := by
  induction h with
  | refl => exact hP
  | tail hreaches hlast ih =>
    obtain ⟨s', left', hkeeps, horderly, -⟩ := isOrderly hgrid hreaches hm
    obtain ⟨kind, hkind, hlast⟩ := hlast
    exact hstep kind hkind _ _ s' left' hkeeps horderly hlast ih

/-! ## Computations -/

/-- How a computation leads from an idle evaluator to another one: it takes steps of evaluations,
and it has a result unless the evaluation of one of the cells with the property `P` is given up at
last, which leaves this cell behind. -/
inductive Passes {ε α : Type} (s : Calculation) (P : Address → Prop) (ev : Evaluator) :
    Evaluator × Except ε α → Prop
  | result {ev' : Evaluator} {x : α} (h : (idle ev).Reaches [.evaluation] (idle ev')) :
    Passes s P ev (ev', .ok x)
  | givenUp {ev' : Evaluator} {e : ε} {m : Moment} (haborts : ¬s.NeverAborts)
    (h : (idle ev).Reaches [.evaluation] m) (hstep : Step .abandonment m (idle ev'))
    (hleft : ∃ a, P a ∧ ∃ left : Address → Prop, left a ∧ (idle ev').IsOrderly s left) :
    Passes s P ev (ev', .error e)

end Moment

namespace Run

variable {s : Calculation} {left : Address → Prop} {target : Address} {n : Nat} {r : Run}

theorem complete_of_isOver (hover : r.IsOver) (hkept : ¬r.IsGivenUp) (n : Nat) :
    ∃ o, r = ⟨r.evaluator, .returning o []⟩ ∧ r.complete n = (r.evaluator, .ok o) := by
  obtain ⟨ev, phase⟩ := r
  cases phase with
  | running => exact hover.elim
  | returning o below =>
    cases below with
    | nil => exact ⟨o, rfl, by rw [complete.eq_def]⟩
    | cons => exact hover.elim
  | aborted reason => exact absurd ⟨reason, rfl⟩ hkept

theorem complete_of_aborted {reason : Abort} (h : r.phase = .aborted reason) (n : Nat) :
    r.complete n = (r.evaluator, .error reason) := by
  obtain ⟨ev, phase⟩ := r
  obtain rfl : phase = .aborted reason := h
  rw [complete.eq_def]

/-- An evaluation comes to its end by steps: no cell waits for the outcome, or the next turn gives
the evaluation up. -/
theorem IsOrderly.exists_complete (hproper : s.IsProper) (h : r.IsOrderly s left target n)
    (hkept : ¬r.IsGivenUp) :
    ∃ r', (Moment.busy r).Reaches [.evaluation] (.busy r') ∧
      ((∃ o, r' = ⟨r'.evaluator, .returning o []⟩ ∧ r.complete n = (r'.evaluator, .ok o)) ∨
        (¬r'.IsOver ∧ (∃ n', r'.turn.IsOrderly s left target n') ∧
          ∃ reason, r'.turn.phase = .aborted reason ∧
            r.complete n = (r'.turn.evaluator, .error reason))) := by
  -- Induction on the turns to come, for an evaluation that has not been given up so far.
  induction n generalizing r with
  | zero => exact ⟨r, .refl, .inl (complete_of_isOver h.isOver hkept 0)⟩
  | succ n ih =>
    by_cases hover : r.IsOver
    · exact ⟨r, .refl, .inl (complete_of_isOver hover hkept (n + 1))⟩
    · have hturn := h.turn hproper hover
      rw [complete_succ hover]
      by_cases hgiven : r.turn.IsGivenUp
      · obtain ⟨reason, hreason⟩ := hgiven
        exact ⟨r, .refl, .inr ⟨hover, ⟨n, hturn⟩, reason, hreason, complete_of_aborted hreason n⟩⟩
      · obtain ⟨r', hreaches, hends⟩ := ih hturn hgiven
        exact ⟨r', .trans ((Moment.Step.turn hover hgiven).reaches List.mem_cons_self) hreaches,
          hends⟩

end Run

namespace Moment

variable {s : Calculation} {left : Address → Prop} {ev : Evaluator} {a : Address}
  {P Q : Address → Prop}

theorem Passes.imp {ε α : Type} {answer : Evaluator × Except ε α} (h : Passes s P ev answer)
    (hPQ : ∀ a, P a → Q a) : Passes s Q ev answer := by
  cases h with
  | result hreaches => exact .result hreaches
  | givenUp haborts hreaches hstep hleft =>
    obtain ⟨a, ha, hleft⟩ := hleft
    exact .givenUp haborts hreaches hstep ⟨a, hPQ a ha, hleft⟩

theorem Passes.mapError {ε ε' α : Type} {answer : Evaluator × Except ε α} {f : ε → ε'}
    (h : Passes s P ev answer) : Passes s P ev (answer.1, answer.2.mapError f) := by
  cases h with
  | result hreaches => exact .result hreaches
  | givenUp haborts hreaches hstep hleft => exact .givenUp haborts hreaches hstep hleft

theorem Passes.map {ε α β : Type} {answer : Evaluator × Except ε α} {f : α → β}
    (h : Passes s P ev answer) : Passes s P ev (answer.1, answer.2.map f) := by
  cases h with
  | result hreaches => exact .result hreaches
  | givenUp haborts hreaches hstep hleft => exact .givenUp haborts hreaches hstep hleft

/-- The evaluation of a cell passes from an idle evaluator to another one. -/
theorem IsOrderly.passes_compute (hproper : s.IsProper) (h : (idle ev).IsOrderly s left)
    (ha : s.grid.Contains a) : Passes s (· = a) ev (ev.compute s.grid.turnBound a) := by
  obtain ⟨hs, hbusy⟩ := h
  have horderly : (ev.request a []).IsOrderly s left a s.grid.turnBound :=
    (ev.requestsTo_request a []).isOrderly hproper hs ha .nil hbusy Calculation.pending_le_turnBound
  obtain ⟨r', hreaches, hends⟩ := horderly.exists_complete hproper not_isGivenUp_request
  have hreaches' : (idle ev).Reaches [.evaluation] (busy r') :=
    .trans ((Step.begin (by rwa [← hs] at ha)).reaches List.mem_cons_self) hreaches
  rcases hends with ⟨o, hr', hcomplete⟩ | ⟨hover, ⟨n', hturn⟩, reason, hreason, hcomplete⟩
  · -- nothing is left to do but to finish
    rw [Evaluator.compute, hcomplete]
    rw [hr'] at hreaches'
    exact .result (hreaches'.trans (Step.finish.reaches List.mem_cons_self))
  · obtain ⟨hs', hphase⟩ := hturn
    rw [hreason] at hphase
    obtain ⟨haborts, stack, hmem, hbusy'⟩ := hphase
    rw [Evaluator.compute, hcomplete]
    exact .givenUp haborts hreaches' (.giveUp hover ⟨reason, hreason⟩)
      ⟨a, rfl, _, .inl hmem, hs', hbusy'.leave⟩

/-- Computations that pass in turn pass together. -/
theorem IsOrderly.passes_inTurn {α β : Type} {table : RawValue} {marker : Option String}
    {f : Evaluator → α → Evaluator × Except Abort β} {as : List α}
    (hgrid : Grid.ofRaw table marker = .ok s.grid)
    (hf : ∀ ev a, a ∈ as → (idle ev).IsOrderly s left → Passes s P ev (f ev a))
    (h : (idle ev).IsOrderly s left) : Passes s P ev (Evaluator.inTurn f ev as) := by
  induction as generalizing ev with
  | nil => exact .result .refl
  | cons a as ih =>
    have hhead := hf ev a List.mem_cons_self h
    unfold Evaluator.inTurn
    split
    · -- the first computation is given up
      rename_i ev' reason heq
      rw [heq] at hhead
      cases hhead with
      | givenUp haborts hreaches hstep hleft => exact .givenUp haborts hreaches hstep hleft
    · rename_i ev' b heq
      rw [heq] at hhead
      cases hhead with
      | result hreaches =>
        -- The evaluator that it leaves carries out the same calculation.
        obtain ⟨s', left', hkeeps, horderly, -⟩ := hreaches.isOrderly hgrid h
        obtain rfl := hkeeps.eq (by decide)
        obtain rfl := hkeeps.left_eq (by decide)
        have htail := ih (fun ev a' ha' => hf ev a' (List.mem_cons_of_mem a ha')) horderly
        split
        · rename_i ev'' reason heq'
          rw [heq'] at htail
          cases htail with
          | givenUp haborts hreaches' hstep hleft =>
            exact .givenUp haborts (hreaches.trans hreaches') hstep hleft
        · rename_i ev'' bs heq'
          rw [heq'] at htail
          cases htail with
          | result hreaches' => exact .result (hreaches.trans hreaches')

/-- The evaluation of the cells of a row passes from an idle evaluator to another one. -/
theorem IsOrderly.passes_row {table : RawValue} {marker : Option String}
    (hgrid : Grid.ofRaw table marker = .ok s.grid) {row : List Address}
    (hrow : row ∈ s.grid.rowAddresses) (h : (idle ev).IsOrderly s left) :
    Passes s s.grid.Contains ev
      (Evaluator.inTurn (Evaluator.compute · s.grid.turnBound ·) ev row) := by
  refine h.passes_inTurn hgrid fun ev' a ha hev' => ?_
  have hcontains := Grid.mem_addresses.1 (List.mem_flatten.2 ⟨row, hrow, ha⟩)
  exact (hev'.passes_compute (Calculation.isProper_of_ofRaw hgrid) hcontains).imp
    fun b hb => hb ▸ hcontains

/-- The evaluation of all cells passes from an idle evaluator to another one. -/
theorem IsOrderly.passes_evaluateAll {table : RawValue} {marker : Option String}
    (hgrid : Grid.ofRaw table marker = .ok s.grid) (h : (idle ev).IsOrderly s left) :
    Passes s s.grid.Contains ev ev.evaluateAll := by
  have hrows := h.passes_inTurn hgrid fun _ _ hrow hev => hev.passes_row hgrid hrow
  unfold Evaluator.evaluateAll
  rw [h.grid_eq]
  split
  · rename_i ev' reason heq
    rw [heq] at hrows
    cases hrows with
    | givenUp haborts hreaches hstep hleft => exact .givenUp haborts hreaches hstep hleft
  · rename_i ev' rows heq
    rw [heq] at hrows
    cases hrows with
    | result hreaches => exact .result (hreaches.trans (Step.tell.reaches List.mem_cons_self))

variable {kinds : List Kind}

theorem Passes.reaches {ε α : Type} {answer : Evaluator × Except ε α} (h : Passes s P ev answer)
    (hkind : .evaluation ∈ kinds) (hsafe : s.NeverAborts ∨ .abandonment ∈ kinds) :
    (idle ev).Reaches kinds (idle answer.1) := by
  have hsubset : [.evaluation] ⊆ kinds := by simpa using hkind
  cases h with
  | result hreaches => exact hreaches.mono hsubset
  | givenUp haborts hreaches hstep _ =>
    exact (hreaches.mono hsubset).trans (hstep.reaches (hsafe.resolve_left haborts))

variable {table : RawValue} {marker : Option String}

/-- A call inside of the grid passes from an idle evaluator to another one. -/
theorem IsOrderly.passes_answer (hgrid : Grid.ofRaw table marker = .ok s.grid)
    (h : (idle ev).IsOrderly s left) {call : Call} (hcall : call.IsWithin s.grid) :
    Passes s (fun a => s.grid.Contains a ∧ ∀ b, call = .one b → a = b) ev (ev.answer call) := by
  cases call with
  | one a =>
    have ha := hcall a rfl
    have hpasses := h.passes_compute (Calculation.isProper_of_ofRaw hgrid) ha
    rw [Evaluator.answer, Evaluator.evaluate_of_contains (h.grid_eq ▸ ha), h.grid_eq]
    refine (hpasses.imp fun b hb => ?_).mapError.map
    subst hb
    exact ⟨ha, fun c hc => Call.one.inj hc⟩
  | all =>
    exact ((h.passes_evaluateAll hgrid).imp fun a ha => ⟨ha, by rintro b ⟨⟩⟩).mapError

/-- A call is answered by steps. One for a cell outside of the grid takes none. -/
theorem IsOrderly.reaches_answer (hgrid : Grid.ofRaw table marker = .ok s.grid)
    (h : (idle ev).IsOrderly s left) (hkind : .evaluation ∈ kinds)
    (hsafe : s.NeverAborts ∨ .abandonment ∈ kinds) (call : Call) :
    (idle ev).Reaches kinds (idle (ev.answer call).1) := by
  by_cases hcall : call.IsWithin s.grid
  · exact (h.passes_answer hgrid hcall).reaches hkind hsafe
  · obtain ⟨a, rfl, ha⟩ := Call.exists_of_not_isWithin hcall
    rw [← h.1] at ha
    rw [Evaluator.answer, Evaluator.evaluate_of_not_contains ha]
    exact .refl

/-- Calls are answered by steps. -/
theorem IsOrderly.reaches_calls (hgrid : Grid.ofRaw table marker = .ok s.grid)
    (h : (idle ev).IsOrderly s left) (hkind : .evaluation ∈ kinds) (hfixed : .registration ∉ kinds)
    (hsafe : s.NeverAborts ∨ .abandonment ∈ kinds) (calls : List Call) :
    (idle ev).Reaches kinds (idle (ev.after calls)) := by
  induction calls generalizing ev left with
  | nil => exact .refl
  | cons call calls ih =>
    have hcall : (idle ev).Reaches kinds (idle (ev.answer call).1) :=
      h.reaches_answer hgrid hkind hsafe call
    obtain ⟨s', left', hkeeps, horderly, -⟩ := hcall.isOrderly hgrid h
    obtain rfl := hkeeps.eq hfixed
    exact hcall.trans (ih horderly)

/-- Where nothing gives up, calls are answered by steps of evaluations. -/
theorem IsOrderly.reaches_after (hgrid : Grid.ofRaw table marker = .ok s.grid)
    (hsafe : s.NeverAborts) (h : (idle ev).IsOrderly s left) (calls : List Call) :
    (idle ev).Reaches [.evaluation] (idle (ev.after calls)) :=
  h.reaches_calls hgrid (by decide) (by decide) (.inl hsafe) calls

end Moment

/-! ## Operations -/

/-- What may be done in a session. -/
inductive Operation where
  | call (call : Call)
  /-- The value tree below a cell is shown. -/
  | tree (a : Address) (indent : Int)
  | register (name : String) (f : GridFunction) (refusesEmpty : Option Bool)

/-- The operation registers no function that may give up. -/
def Operation.IsSafe : Operation → Prop
  | register name f refusesEmpty => (Registry.empty.register name f refusesEmpty).NeverAborts
  | _ => True

namespace Evaluator

/-- The evaluator after an operation. -/
def perform (ev : Evaluator) : Operation → Evaluator
  | .call call => (ev.answer call).1
  | .tree a indent => (ev.valueTree a indent).1
  | .register name f refusesEmpty => ev.register name f refusesEmpty

/-- The evaluator after some operations. -/
def afterAll (ev : Evaluator) (ops : List Operation) : Evaluator := ops.foldl perform ev

open Moment

variable {s : Calculation} {left : Address → Prop} {ev : Evaluator} {kinds : List Kind}
  {table : RawValue} {marker : Option String}

/-- Showing the value tree below a cell leaves the evaluator as evaluating the cell does. -/
theorem valueTree_fst (ev : Evaluator) (a : Address) (indent : Int) :
    (ev.valueTree a indent).1 = (ev.answer (.one a)).1 := by
  unfold valueTree answer
  split <;> simp_all

/-- An operation is done by steps. -/
theorem reaches_perform (hgrid : Grid.ofRaw table marker = .ok s.grid)
    (h : (idle ev).IsOrderly s left) (hkinds : [.evaluation, .registration] ⊆ kinds)
    (hsafe : s.NeverAborts ∨ .abandonment ∈ kinds) (op : Operation) :
    (idle ev).Reaches kinds (idle (ev.perform op)) := by
  have hevaluation : .evaluation ∈ kinds := hkinds List.mem_cons_self
  cases op with
  | call call => exact h.reaches_answer hgrid hevaluation hsafe call
  | tree a indent =>
    rw [perform, valueTree_fst]
    exact h.reaches_answer hgrid hevaluation hsafe (.one a)
  | register name f refusesEmpty => exact Step.register.reaches (hkinds (by simp))

theorem neverAborts_perform (hgrid : Grid.ofRaw table marker = .ok s.grid)
    (h : (idle ev).IsOrderly s left) (hsafe : s.NeverAborts) {op : Operation} (hop : op.IsSafe) :
    (ev.perform op).calculation.NeverAborts := by
  obtain ⟨rfl, hbusy⟩ := h
  -- Only a registration changes the functions.
  have hcall : ∀ call, (ev.answer call).1.calculation = ev.calculation := by
    intro call
    have hreaches : (idle ev).Reaches [.evaluation] (idle (ev.answer call).1) :=
      IsOrderly.reaches_answer hgrid ⟨rfl, hbusy⟩ List.mem_cons_self (.inl hsafe) call
    obtain ⟨s', left', hkeeps, horderly, -⟩ := hreaches.isOrderly hgrid ⟨rfl, hbusy⟩
    exact horderly.1.trans (hkeeps.eq (by decide))
  cases op with
  | call call => rwa [perform, hcall]
  | tree a indent => rwa [perform, valueTree_fst, hcall]
  | register name f refusesEmpty => exact ⟨hsafe.functions.register hop, hsafe.scale⟩

/-- Whatever is done in a session is done by steps, and no evaluation is given up where nothing
gives up. -/
theorem reaches_afterAll (hgrid : Grid.ofRaw table marker = .ok s.grid)
    (h : (idle ev).IsOrderly s left) (hkinds : [.evaluation, .registration] ⊆ kinds)
    (ops : List Operation)
    (hsafe : (s.NeverAborts ∧ ∀ op ∈ ops, op.IsSafe) ∨ .abandonment ∈ kinds) :
    (idle ev).Reaches kinds (idle (ev.afterAll ops)) := by
  induction ops generalizing ev s left with
  | nil => exact .refl
  | cons op ops ih =>
    have hop : (idle ev).Reaches kinds (idle (ev.perform op)) :=
      reaches_perform hgrid h hkinds (hsafe.imp_left And.left) op
    obtain ⟨s', left', hkeeps, horderly, -⟩ := hop.isOrderly hgrid h
    refine hop.trans (ih (hkeeps.grid_eq ▸ hgrid) horderly (hsafe.imp_left fun hsafe => ?_))
    obtain ⟨hop, hops⟩ := List.forall_mem_cons.1 hsafe.2
    exact ⟨horderly.1 ▸ neverAborts_perform hgrid h hsafe.1 hop, hops⟩

end Evaluator

/-! ## Moments of a session -/

namespace Moment

/-- A cell is done or has failed exactly if a number or a failure is kept for it, and its formula
has been started at most once. -/
structure IsConsistent (m : Moment) : Prop where
  done_iff : ∀ a, m.evaluator.state a = .done ↔ ∃ v, m.evaluator.outcome? a = some (.ok v)
  failed_iff : ∀ a, m.evaluator.state a = .failed ↔ ∃ f, m.evaluator.outcome? a = some (.error f)
  startCount_le : ∀ a : Address, m.evaluator.startCount a ≤ 1

/-- The cells in progress are those on the stack. They are distinct, they lie inside of the grid,
and each of them waits for the one above it. -/
structure IsStacked (g : Grid) (m : Moment) : Prop where
  inProgress_iff : ∀ a, m.evaluator.state a = .inProgress ↔ a ∈ m.stack
  nodup : m.stack.Nodup
  contains : ∀ a ∈ m.stack, g.Contains a
  isChain : m.stack.IsChain m.evaluator.WaitsFor

variable {s : Calculation} {left : Address → Prop} {m m' : Moment} {kinds : List Kind}
  {table : RawValue} {marker : Option String}

theorem isConsistent_of_advances (h : (Evaluator.start s.grid s.functions s.scale).Advances
    m.evaluator) : m.IsConsistent where
  done_iff _ := Evaluator.state_eq_done_iff
  failed_iff _ := Evaluator.state_eq_failed_iff
  startCount_le a := by
    -- At the start no formula has been started.
    have hstart : (Evaluator.start s.grid s.functions s.scale).startCount a = 0 := rfl
    rcases h.startCount a with hcount | ⟨-, -, hcount⟩ <;> omega

theorem IsOrderly.isStacked (h : m.IsOrderly s fun _ => False) : m.IsStacked s.grid := by
  cases m with
  | idle ev =>
    refine ⟨fun a => ?_, .nil, List.forall_mem_nil _, .nil⟩
    rw [Evaluator.state_eq_inProgress_iff]
    exact (h.2.inProgress_iff a).trans (by simp [stack])
  | busy r =>
    obtain ⟨hkept, target, n, hr⟩ := h
    have hbusy := hr.isBusyWith_stack hkept
    refine ⟨fun a => ?_, hbusy.nodup, fun a => hr.contains_of_mem_stack, hr.isChain_stack⟩
    rw [Evaluator.state_eq_inProgress_iff]
    exact (hbusy.inProgress_iff a).trans (by simp [stack])

end Moment

namespace Evaluator

open Moment

/-- Whatever is done in a session is done by steps, and at every moment what is kept of cells is
consistent. From then on states only advance, and outcomes stay. Until an evaluation is given up
the cells in progress are those on the stack, so none is in progress between operations. Where the
functions never give up and the scale is not negative, no evaluation is given up. -/
theorem moments_of_session {s : Calculation} {table : RawValue} {marker : Option String}
    (hgrid : Grid.ofRaw table marker = .ok s.grid) :
    let ev := start s.grid s.functions s.scale
    let all := [.evaluation, .registration, .abandonment]
    (∀ ops, (idle ev).Reaches all (idle (ev.afterAll ops))) ∧
      (∀ m, (idle ev).Reaches all m → m.IsConsistent ∧ ∀ m', m.Reaches all m' → ∀ a,
        Relation.ReflTransGen CellState.Next (m.evaluator.state a) (m'.evaluator.state a) ∧
          ∀ o, m.evaluator.outcome? a = some o → m'.evaluator.outcome? a = some o) ∧
        (∀ m, (idle ev).Reaches [.evaluation, .registration] m → m.IsStacked s.grid) ∧
          (s.NeverAborts → ∀ ops, (∀ op ∈ ops, Operation.IsSafe op) →
            (idle ev).Reaches [.evaluation, .registration] (idle (ev.afterAll ops))) := by
  intro ev all
  have hstart : (idle ev).IsOrderly s fun _ => False := isOrderly_start
  refine ⟨fun ops => ?_, fun m hm => ?_, fun m hm => ?_, fun hsafe ops hops => ?_⟩
  · exact reaches_afterAll hgrid hstart (by decide) ops (.inr (by decide))
  · obtain ⟨s', left', hkeeps, horderly, hadvances⟩ := hm.isOrderly hgrid hstart
    refine ⟨isConsistent_of_advances (s := s) hadvances, fun m' hm' a => ?_⟩
    obtain ⟨-, -, -, -, hlater⟩ := hm'.isOrderly (hkeeps.grid_eq ▸ hgrid) horderly
    exact ⟨hlater.state a, fun o => hlater.outcome?_eq⟩
  · -- nothing is left behind as long as nothing is given up
    obtain ⟨s', left', hkeeps, horderly, -⟩ := hm.isOrderly hgrid hstart
    obtain rfl := hkeeps.left_eq (by decide)
    exact hkeeps.grid_eq ▸ horderly.isStacked
  · exact reaches_afterAll hgrid hstart (by decide) ops (.inl ⟨hsafe, hops⟩)

/-- Also when a standard function is replaced between two calls, no cell of the cycle is in progress
after the calls. -/
theorem moments_twoCycle :
    let ops := [.call (.one ⟨0, 0⟩), .register "sum" .product none, .tree ⟨0, 1⟩ 0, .call .all]
    ∀ a, ((start Grid.twoCycle .standard 28).afterAll ops).state a ≠ .inProgress := by
  intro ops a ha
  obtain ⟨-, -, hstacked, hreaches⟩ := moments_of_session (s := .twoCycle) Grid.ofRaw_twoCycleTable
  have hsafe : Calculation.twoCycle.NeverAborts := ⟨Registry.neverAborts_standard, by decide⟩
  have hproduct : (Registry.empty.register "sum" .product none).NeverAborts := by
    intro name f hf
    rw [Registry.lookup_register] at hf
    split at hf
    · cases hf
      exact GridFunction.neverAborts_product ⟨"product", false⟩ rfl
    · cases hf
  have hops : ∀ op ∈ ops, Operation.IsSafe op := by
    simpa [ops, Operation.IsSafe] using hproduct
  have hmem := ((hstacked _ (hreaches hsafe ops hops)).inProgress_iff a).1 ha
  cases hmem

/-- A division that is given up leaves its cell in progress, also after a later call has returned an
outcome. -/
theorem state_large :
    let s : Calculation := ⟨Grid.large, .standard, -1⟩
    let ev := start s.grid s.functions s.scale
    Grid.ofRaw Grid.largeTable (some "=") = .ok s.grid ∧ s.functions.NeverAborts ∧
      (∃ rows, ((ev.after [.one ⟨0, 1⟩]).answer (.one ⟨0, 2⟩)).2 = .ok rows) ∧
        (ev.after [.one ⟨0, 1⟩, .one ⟨0, 2⟩]).state ⟨0, 1⟩ = .inProgress := by
  intro s ev
  refine ⟨Grid.ofRaw_largeTable, Registry.neverAborts_standard, ?_, by decide +kernel⟩
  have hok : ((ev.after [.one ⟨0, 1⟩]).answer (.one ⟨0, 2⟩)).2.isOk = true := by decide +kernel
  cases hanswer : ((ev.after [.one ⟨0, 1⟩]).answer (.one ⟨0, 2⟩)).2 with
  | ok rows => exact ⟨rows, rfl⟩
  | error raised => simp [hanswer, Except.isOk, Except.toBool] at hok

end Evaluator

end DecimalSheet
