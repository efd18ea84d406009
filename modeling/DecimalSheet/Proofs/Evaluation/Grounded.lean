import DecimalSheet.Proofs.Evaluation.Precedents

/-!
# Numbers rest on numbers

A formula comes to a number only when all cells that it mentions have numbers already. So from a
cell with a number every way along mentioned cells comes to an end, and no precedents lead from such
a cell back to it. This is an invariant of every step of an evaluation, for all formulas, however
high their trees are.

## Main definitions

* `Evaluator.IsFounded ev`: the cells with numbers are grounded

## Main results

* `Moment.Reaches.isFounded`: steps of evaluations keep the cells with numbers grounded
* `Evaluator.IsFounded.not_transGen_precedes`: no cycle of the precedents leads to a number
-/

namespace DecimalSheet

namespace Calculation

variable {s : Calculation} {a : Address} {tree : Expr}

/-- A cell without a formula refers to no cell. -/
theorem isGrounded_of_tree?_eq_none (h : s.tree? a = none) : s.IsGrounded a := by
  refine ⟨_, ?_⟩
  rintro b ⟨tree, htree, -⟩
  cases h.symm.trans htree

theorem isGrounded_of_mentions (htree : s.tree? a = some tree)
    (h : ∀ b ∈ tree.mentions, s.IsGrounded b) : s.IsGrounded a :=
  ⟨_, fun b hb => h b ((refersTo_of_tree? htree).1 hb)⟩

end Calculation

namespace Evaluator

variable {ev ev' : Evaluator} {a b c : Address} {below : List Frame} {o : Outcome}
  {p : Program Decimal} {trail : List Address} {denies : Failure → Address → Prop}

/-- From a cell with a number every way along mentioned cells comes to an end. -/
def IsFounded (ev : Evaluator) : Prop := ∀ a v, ev.number? a = some v → ev.calculation.IsGrounded a

theorem IsFounded.congr (h : ev.IsFounded) (hcalculation : ev'.calculation = ev.calculation)
    (hstatus : ev'.status = ev.status) : ev'.IsFounded := by
  intro a v hv
  rw [number?, outcome?_congr hstatus] at hv
  exact hcalculation ▸ h a v hv

/-- A cell gets a new status, which is no number unless the cell is grounded. -/
theorem IsFounded.of_insert {st : Status} (h : ev.IsFounded)
    (hcalculation : ev'.calculation = ev.calculation)
    (hstatus : ev'.status = ev.status.insert c st)
    (hc : ∀ v, st = .finished (.ok v) → ev.calculation.IsGrounded c) : ev'.IsFounded := by
  intro a v hv
  rw [hcalculation]
  rcases outcome?_of_insert (number?_eq_some_iff.1 hv) hstatus with hold | ⟨rfl, hst⟩
  · exact h a v (number?_eq_some_iff.2 hold)
  · exact hc v hst

/-- A cell gets an outcome, which is no number unless the cell is grounded. -/
theorem IsFounded.keep (h : ev.IsFounded)
    (hc : ∀ v, o = .ok v → ev.calculation.IsGrounded c) : (ev.keep c o).IsFounded :=
  h.of_insert rfl rfl fun v hv => hc v (Status.finished.inj hv)

/-- A request makes a cell with a literal a number, and no other cell. -/
theorem RequestsTo.isFounded {r : Run} (hr : ev.RequestsTo a below r) (h : ev.IsFounded) :
    r.evaluator.IsFounded := by
  cases hr with
  | kept | refused | outside => exact h.congr rfl rfl
  | literal hnew hcell hcontent =>
    refine h.keep fun v hv => Calculation.isGrounded_of_tree?_eq_none ?_
    exact tree?_eq_none hcell (congrArg (Content.outcome? a) hcontent)
  | unreadable => exact h.keep fun v hv => by cases hv
  | formula => exact h.of_insert rfl rfl fun v hv => by cases hv

/-- The topmost formula comes to a number only after all cells that it mentions. -/
theorem IsTracking.isFounded_proceed (htracking : ev.IsTracking c trail p) (h : ev.IsFounded) :
    (ev.proceed c p below).evaluator.IsFounded := by
  cases p with
  | done value =>
    obtain ⟨tree, as, htree, hmentions, rfl⟩ := htracking.follows
    rw [List.append_nil] at hmentions
    refine h.keep fun _ _ => Calculation.isGrounded_of_mentions htree fun b hb => ?_
    obtain ⟨v, hv⟩ := htracking.knows b (hmentions ▸ hb)
    exact h b v hv
  | raise raised =>
    cases raised with
    | fault fault =>
      have hcounted : ev.countFailure.IsFounded := h.congr rfl rfl
      exact hcounted.keep fun v hv => by cases hv
    | abort reason => exact h
  | ask a next => exact (requestsTo_request _ _ _).isFounded (h.congr rfl rfl)

end Evaluator

/-- One turn keeps the cells with numbers grounded. -/
theorem Run.IsTracked.isFounded_turn {r : Run} {denies : Failure → Address → Prop}
    (hr : r.IsTracked denies) (h : r.evaluator.IsFounded) : r.turn.evaluator.IsFounded := by
  obtain ⟨ev, phase⟩ := r
  obtain ⟨-, htracks⟩ := hr
  cases phase with
  | running c p below =>
    obtain ⟨trail, htracking, -⟩ := htracks
    exact htracking.isFounded_proceed h
  | returning o below =>
    obtain ⟨a, hgives, hbelow⟩ := htracks
    cases hbelow with
    | nil => cases o <;> exact h
    | cons htracking =>
      cases o with
      | ok v => exact (htracking.of_ask hgives.number?_eq_some).isFounded_proceed h
      | error f => exact h.keep fun v hv => by cases hv
  | aborted reason => exact h

namespace Moment

variable {kind : Kind} {kinds : List Kind} {m m' : Moment} {s : Calculation}
  {left : Address → Prop} {table : RawValue} {marker : Option String}

theorem Step.isFounded (hstep : Step kind m m') (hkind : kind ≠ .registration)
    (htracked : m.IsTracked left) (h : m.evaluator.IsFounded) : m'.evaluator.IsFounded := by
  cases hstep with
  | begin => exact (Evaluator.requestsTo_request _ _ _).isFounded h
  | turn | giveUp => exact htracked.isFounded_turn h
  | finish => exact h
  | tell => exact h.congr rfl rfl
  | register => exact absurd rfl hkind

/-- Steps keep the cells with numbers grounded, except that functions may not be replaced. -/
theorem Reaches.isFounded (hgrid : Grid.ofRaw table marker = .ok s.grid)
    (hfixed : .registration ∉ kinds)
    (h : (idle (.start s.grid s.functions s.scale)).Reaches kinds m) : m.evaluator.IsFounded := by
  have hstart : (idle (.start s.grid s.functions s.scale)).IsOrderly s fun _ => False :=
    isOrderly_start
  induction h with
  | refl =>
    intro a v hv
    rw [Evaluator.number?_eq_some_iff, Evaluator.outcome?_eq_some_iff] at hv
    simp [evaluator, Evaluator.start] at hv
  | tail hreaches hlast ih =>
    obtain ⟨left, -, htracked⟩ :=
      Reaches.exists_isTracked hgrid hfixed hreaches hstart (isTracked_start _)
    obtain ⟨kind, hkind, hlast⟩ := hlast
    exact hlast.isFounded (fun heq => hfixed (heq ▸ hkind)) htracked ih

end Moment

namespace Evaluator

variable {ev : Evaluator} {a c : Address} {denies : Failure → Address → Prop}

/-- No cycle of the precedents leads to a cell with a number. -/
theorem IsFounded.not_transGen_precedes (h : ev.IsFounded)
    (hrecorded : ∀ c, ev.Recorded denies c) (hstate : ev.state a = .done) :
    ¬Relation.TransGen ev.Precedes a a := by
  intro hcycle
  obtain ⟨v, hv⟩ := state_eq_done_iff.1 hstate
  exact (h a v (number?_eq_some_iff.2 hv)).not_transGen (transGen_of_done hrecorded hcycle hstate).2

end Evaluator

end DecimalSheet
