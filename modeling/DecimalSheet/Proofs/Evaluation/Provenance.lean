import DecimalSheet.Proofs.Evaluation.GivenUp
import DecimalSheet.Proofs.Evaluation.PlainFaults

/-!
# Where failures come from

A failure arises in one cell and spreads to the cells that ask for it. Each failed cell either is
the origin of its failure, or its failure is that of the first cell for which its formula asks and
which has no number. This way the failure is traced back to its origin, which has failed with it.
The failure of a circular reference is the only one that spreads before its origin has failed: it
goes down the stack, on which the origin lies.

## Main definitions

* `Evaluator.Spreads ev f a b`: the failure has come to the cell `b`, which has asked for `a`
* `Evaluator.Explains ev f c`: how the failure has come to the cell `c`
* `Moment.IsTraced m`: all failures are explained

## Main results

* `Moment.Step.isTraced`: a step of an evaluation keeps all failures explained
* `Evaluator.provenance_of_failures`: every failed cell has its failure from the origin
-/

namespace DecimalSheet

namespace Evaluator

variable {ev ev' : Evaluator} {f : Failure} {a b c : Address} {below : List Frame}

/-- The cell `b` has asked for the cell `a`, and the failure is kept for it. -/
def Spreads (ev : Evaluator) (f : Failure) (a b : Address) : Prop :=
  b ∈ ev.dependencies.dependantsOf a ∧ ev.outcome? b = some (.error f)

/-- The failure has come to the cell `c` from its origin. It arose in `c`, or it is that of the
first cell without a number for which the formula of `c` asks. A cell that cannot be read has the
failure of that. -/
structure Explains (ev : Evaluator) (f : Failure) (c : Address) : Prop where
  contains : ev.grid.Contains f.origin
  spreads : Relation.ReflTransGen (ev.Spreads f) f.origin c
  request : c ≠ f.origin → ∃ a, ev.nextRequest? c = some a ∧
    c ∈ ev.dependencies.dependantsOf a ∧ (a = f.origin ∨ ev.outcome? a = some (.error f))
  unreadable : ∀ cell formula fault, ev.grid.cell? c = some cell →
    cell.content = .unreadable formula fault → f = ⟨fault, c, .construction⟩

theorem Advances.spreads (h : ev.Advances ev') (hab : Relation.ReflTransGen (ev.Spreads f) a b) :
    Relation.ReflTransGen (ev'.Spreads f) a b :=
  Relation.ReflTransGen.mono (fun _ _ ⟨hasked, ho⟩ =>
    ⟨h.dependants _ _ hasked, h.outcome?_eq ho⟩) _ _ hab

theorem number?_eq_none_of_failed (h : ev.outcome? a = some (.error f)) : ev.number? a = none := by
  rw [number?, h]
  rfl

/-- The first cell without a number for which a formula asks stays the first one as long as it gets
no number. -/
theorem Advances.nextRequest?_eq (h : ev.Advances ev') (hs : ev'.calculation = ev.calculation)
    (ha : ev.nextRequest? c = some a) (hnone : ev'.number? a = none) :
    ev'.nextRequest? c = some a := by
  obtain ⟨tree, htree, hrequest⟩ := Option.bind_eq_some_iff.1 ha
  rw [nextRequest?, hs, htree, Option.bind_some, setting_eq, hs, ← setting_eq]
  cases hrest : (tree.program ev.setting Expr.maxHeight).rest ev.number? with
  | done | raise => simp [hrest, Program.request?] at hrequest
  | ask b next =>
    rw [hrest] at hrequest
    obtain rfl := Option.some.inj hrequest
    rw [← Program.rest_rest (fun _ _ => h.number?_eq), hrest, Program.rest_ask_of_eq_none hnone]
    rfl

theorem Explains.mono (hexplains : ev.Explains f c) (h : ev.Advances ev')
    (hs : ev'.calculation = ev.calculation) (horigin : ev'.number? f.origin = none) :
    ev'.Explains f c where
  contains := h.grid_eq ▸ hexplains.contains
  spreads := h.spreads hexplains.spreads
  request hc := by
    obtain ⟨a, hnext, hasked, ha⟩ := hexplains.request hc
    have ha' : a = f.origin ∨ ev'.outcome? a = some (.error f) := ha.imp_right h.outcome?_eq
    refine ⟨a, h.nextRequest?_eq hs hnext ?_, h.dependants _ _ hasked, ha'⟩
    rcases ha' with rfl | ha'
    · exact horigin
    · exact number?_eq_none_of_failed ha'
  unreadable := h.grid_eq ▸ hexplains.unreadable

/-! ## Failures that arise -/

/-- The failure arises in the cell itself. -/
structure ArisesIn (g : Grid) (f : Failure) (c : Address) : Prop where
  contains : g.Contains c
  origin_eq : f.origin = c
  unreadable : ∀ cell formula fault, g.cell? c = some cell →
    cell.content = .unreadable formula fault → f = ⟨fault, c, .construction⟩

theorem ArisesIn.explains (h : ArisesIn ev.grid f c) : ev.Explains f c where
  contains := h.origin_eq ▸ h.contains
  spreads := h.origin_eq ▸ .refl
  request hc := absurd h.origin_eq.symm hc
  unreadable := h.unreadable

/-- A request makes no cell fail, unless the cell cannot be read. -/
theorem RequestsTo.failed {r : Run} (h : ev.RequestsTo a below r) {table : RawValue}
    {marker : Option String} (hgrid : Grid.ofRaw table marker = .ok ev.grid)
    (hf : r.evaluator.outcome? c = some (.error f)) :
    ev.outcome? c = some (.error f) ∨ ArisesIn ev.grid f c := by
  cases h with
  | kept => exact .inl hf
  | refused | outside => exact .inl hf
  | literal =>
    exact .inl ((outcome?_of_insert hf rfl).resolve_right (by rintro ⟨-, ⟨⟩⟩))
  | formula =>
    exact .inl ((outcome?_of_insert hf rfl).resolve_right (by rintro ⟨-, ⟨⟩⟩))
  | @unreadable cell formula fault hnew hcell hcontent =>
    refine (outcome?_of_insert hf rfl).imp_right ?_
    rintro ⟨rfl, hst⟩
    have hplain : fault.ownOrigin? = none := Grid.isPlain_of_ofRaw hgrid hcell hcontent
    obtain rfl : ⟨fault, c, .construction⟩ = f := by
      rw [hplain] at hst
      cases hst
      rfl
    refine ⟨Grid.contains_of_cell? hcell, rfl, fun cell' formula' fault' hcell' hcontent' => ?_⟩
    obtain rfl := Option.some.inj (hcell.symm.trans hcell')
    cases hcontent.symm.trans hcontent'
    rfl

end Evaluator

/-- A cell with a formula can be read. -/
theorem Calculation.ne_unreadable_of_tree? {s : Calculation} {c : Address} {tree : Expr}
    (htree : s.tree? c = some tree) {cell : Cell} {formula : Option Formula} {fault : Fault}
    (hcell : s.grid.cell? c = some cell) : cell.content ≠ .unreadable formula fault := by
  intro hcontent
  obtain ⟨cell', f, references, hcell', hcontent'⟩ := Calculation.tree?_eq_some_iff.1 htree
  obtain rfl := Option.some.inj (hcell.symm.trans hcell')
  cases hcontent.symm.trans hcontent'

/-- The fault to which a formula comes is plain. -/
theorem Calculation.Continues.isPlain {s : Calculation} {known : Address → Option Decimal}
    {c : Address} {k : Nat} {fault : Fault} (h : s.Continues known c k (.raise (.fault fault)))
    (hplain : s.functions.IsPlain) : fault.IsPlain := by
  obtain ⟨tree, -, hrest⟩ := h.rest_eq
  exact (Expr.isPlain_or_of_rest hrest).elim id hplain.of_failsWith

variable {f : Failure} {b c : Address}

/-- Going on with a formula makes no cell fail, unless the failure arises in the cell. -/
theorem Evaluator.proceed_failed {ev : Evaluator} {k : Nat} {p : Program Decimal}
    {below : List Frame} {table : RawValue} {marker : Option String}
    (hgrid : Grid.ofRaw table marker = .ok ev.grid) (hplain : ev.functions.IsPlain)
    (hcontinues : ev.calculation.Continues ev.number? b k p)
    (hf : (ev.proceed b p below).evaluator.outcome? c = some (.error f)) :
    ev.outcome? c = some (.error f) ∨ ArisesIn ev.grid f c := by
  cases p with
  | done value => exact .inl ((outcome?_of_insert hf rfl).resolve_right (by rintro ⟨-, ⟨⟩⟩))
  | raise raised =>
    cases raised with
    | fault fault =>
      refine (outcome?_of_insert hf rfl).imp_right ?_
      rintro ⟨rfl, hst⟩
      have horigin : fault.ownOrigin? = none := hcontinues.isPlain hplain
      obtain rfl : ev.nextFailure fault c = f := by
        cases hst
        rfl
      refine ⟨hcontinues.contains_cell, ?_, fun cell formula fault' hcell hcontent => ?_⟩
      · rw [nextFailure, horigin]
        rfl
      · obtain ⟨tree, htree, -⟩ := hcontinues.rest_eq
        exact absurd hcontent (Calculation.ne_unreadable_of_tree? htree hcell)
    | abort reason => exact .inl hf
  | ask a next =>
    have hgrid' : Grid.ofRaw table marker = .ok (ev.depend a b).grid := hgrid
    exact (requestsTo_request (ev.depend a b) a _).failed hgrid' hf

/-- A turn makes no cell fail, unless the failure arises in the cell or is handed to it. -/
theorem Run.IsOrderly.failed_turn {s : Calculation} {left : Address → Prop} {target : Address}
    {n : Nat} {r : Run} {table : RawValue} {marker : Option String}
    (hgrid : Grid.ofRaw table marker = .ok s.grid) (hplain : s.functions.IsPlain)
    (hr : r.IsOrderly s left target n)
    (hf : r.turn.evaluator.outcome? c = some (.error f)) :
    r.evaluator.outcome? c = some (.error f) ∨ Evaluator.ArisesIn s.grid f c ∨
      ∃ frame below, r.phase = .returning (.error f) (frame :: below) ∧ c = frame.cell := by
  obtain ⟨ev, phase⟩ := r
  obtain ⟨rfl, hphase⟩ := hr
  cases phase with
  | running b p below =>
    obtain ⟨k, m, hcontinues, -⟩ := hphase
    exact (Evaluator.proceed_failed hgrid hplain hcontinues hf).imp_right .inl
  | returning o below =>
    obtain ⟨a, m, hgives, hawaits, -⟩ := hphase
    cases hawaits with
    | nil => cases o <;> exact .inl hf
    | cons hcontinues =>
      cases o with
      | ok v =>
        have hcontinues' := hcontinues.of_ask hgives.number?_eq_some
        exact (Evaluator.proceed_failed hgrid hplain hcontinues' hf).imp_right .inl
      | error f' =>
        refine (Evaluator.outcome?_of_insert hf rfl).imp_right fun h => .inr ?_
        obtain ⟨rfl, hst⟩ := h
        cases hst
        exact ⟨_, _, rfl, rfl⟩
  | aborted reason => exact .inl hf

namespace Moment

/-- All failures are explained. The origin of a failure has failed with it, or the failure goes down
the stack on which the origin lies. -/
def IsTraced (m : Moment) : Prop :=
  ∀ f c, m.evaluator.outcome? c = some (.error f) →
    m.Fails f f.origin ∧ m.evaluator.Explains f c

variable {s : Calculation} {left : Address → Prop} {m m' : Moment} {table : RawValue}
  {marker : Option String}

theorem IsOrderly.calculation_eq (hm : m.IsOrderly s left) : m.evaluator.calculation = s := by
  cases m with
  | idle ev => exact hm.1
  | busy r =>
    obtain ⟨-, target, n, hr⟩ := hm
    exact hr.1

theorem Fails.number?_eq_none (h : m.Fails f b) (hm : m.IsOrderly s left) :
    m.evaluator.number? b = none := by
  rcases h with hkept | ⟨r, below, rfl, -, hmem⟩
  · exact Evaluator.number?_eq_none_of_failed hkept
  · obtain ⟨hkept, target, n, hr⟩ := hm
    exact (hr.isBusyWith_stack hkept).number?_eq_none hmem

/-- A failure that is handed to a formula is that of the cell for which the formula waits. This cell
has failed with it, or it is the origin and lies on the stack. -/
theorem IsTraced.exists_of_returning {r : Run} {target : Address} {n : Nat} {frame : Frame}
    {below : List Frame} (htraced : (busy r).IsTraced)
    (hr : r.IsOrderly s (fun _ => False) target n)
    (hphase : r.phase = .returning (.error f) (frame :: below)) :
    (busy r).Fails f f.origin ∧ s.grid.Contains f.origin ∧
      ∃ a, r.evaluator.WaitsFor a frame.cell ∧
        Relation.ReflTransGen (r.evaluator.Spreads f) f.origin a ∧
        (a = f.origin ∨ r.evaluator.outcome? a = some (.error f)) := by
  have hstack : ∀ a ∈ r.phase.stack, s.grid.Contains a := fun a => hr.contains_of_mem_stack
  obtain ⟨ev, phase⟩ := r
  obtain rfl : phase = .returning (.error f) (frame :: below) := hphase
  obtain ⟨rfl, a, m, hgives, hawaits, hbusy, -⟩ := hr
  cases hawaits with
  | cons hcontinues hasked hbelow =>
    have hwaits := Evaluator.waitsFor_of_continues hcontinues hgives.number?_eq_none hasked
    rcases hgives with hkept | ⟨hinProgress, f', cycle, hf', -, rfl⟩
    · obtain ⟨hfails, hexplains⟩ := htraced f a hkept
      exact ⟨hfails, hexplains.contains, a, hwaits, hexplains.spreads, .inr hkept⟩
    · -- the cell was refused, so the failure arose in it
      obtain rfl := Except.error.inj hf'
      have hmem := ((hbusy.inProgress_iff _).1 hinProgress).resolve_right id
      exact ⟨.inr ⟨_, _, rfl, rfl, hmem⟩, hstack _ hmem, _, hwaits, .refl, .inl rfl⟩

/-- A step of an evaluation keeps all failures explained. -/
theorem Step.isTraced (hgrid : Grid.ofRaw table marker = .ok s.grid)
    (hplain : s.functions.IsPlain) (h : Step .evaluation m m')
    (hm : m.IsOrderly s fun _ => False) (htraced : m.IsTraced) : m'.IsTraced := by
  intro f c hf
  have hadvances := h.advances hm
  obtain ⟨s', left', hkeeps, horderly⟩ := h.isOrderly (Calculation.isProper_of_ofRaw hgrid) hm
  obtain rfl := hkeeps.eq (by decide)
  obtain rfl := hkeeps.left_eq (by decide)
  have hs : m'.evaluator.calculation = m.evaluator.calculation :=
    horderly.calculation_eq.trans hm.calculation_eq.symm
  have hstays : ∀ b, m.Fails f b → m'.Fails f b := fun b => h.fails hm
  -- What has failed before stays explained, and what fails by itself is explained.
  have hold : m.evaluator.outcome? c = some (.error f) →
      m'.Fails f f.origin ∧ m'.evaluator.Explains f c := by
    intro hkept
    obtain ⟨hfails, hexplains⟩ := htraced f c hkept
    have hfails' := hstays _ hfails
    exact ⟨hfails', hexplains.mono hadvances hs (hfails'.number?_eq_none horderly)⟩
  have hnew : Evaluator.ArisesIn m'.evaluator.grid f c →
      m'.Fails f f.origin ∧ m'.evaluator.Explains f c := by
    intro harises
    refine ⟨.inl ?_, harises.explains⟩
    rw [harises.origin_eq]
    exact hf
  cases h with
  | @begin ev a ha =>
    obtain rfl := hm.1
    rcases (ev.requestsTo_request a []).failed hgrid hf with hkept | harises
    · exact hold hkept
    · exact hnew (hadvances.grid_eq ▸ harises)
  | @turn r hover hkept =>
    obtain ⟨-, target, n, hr⟩ := hm
    have hgrid' : r.turn.evaluator.grid = s'.grid :=
      congrArg Calculation.grid horderly.calculation_eq
    rcases hr.failed_turn hgrid hplain hf with hkept | harises | ⟨frame, below, hphase, rfl⟩
    · exact hold hkept
    · exact hnew (hgrid' ▸ harises)
    · obtain ⟨hfails, hcontains, a, hwaits, hspreads, ha⟩ := htraced.exists_of_returning hr hphase
      have hfails' := hstays _ hfails
      have hasked := hadvances.dependants _ _ hwaits.asked
      have ha' := ha.imp_right hadvances.outcome?_eq
      have hnone : r.turn.evaluator.number? a = none := by
        rcases ha' with rfl | ha'
        · exact hfails'.number?_eq_none horderly
        · exact Evaluator.number?_eq_none_of_failed ha'
      refine ⟨hfails', ?_, ?_, fun _ => ?_, fun cell formula fault hcell hcontent => ?_⟩
      · exact hgrid' ▸ hcontains
      · exact (hadvances.spreads hspreads).tail ⟨hasked, hf⟩
      · exact ⟨a, hadvances.nextRequest?_eq hs hwaits.nextRequest?_eq hnone, hasked, ha'⟩
      · obtain ⟨tree, htree, -⟩ := hwaits.refersTo
        rw [hadvances.grid_eq] at hcell
        exact absurd hcontent (Calculation.ne_unreadable_of_tree? htree hcell)
  | finish | tell => exact hold hf

/-- Evaluations keep all failures explained from the start on. -/
theorem Reaches.isTraced (hgrid : Grid.ofRaw table marker = .ok s.grid)
    (hplain : s.functions.IsPlain)
    (h : (idle (.start s.grid s.functions s.scale)).Reaches [.evaluation] m) : m.IsTraced := by
  refine h.induction hgrid isOrderly_start (fun f c hf => ?_) ?_
  · rw [Evaluator.outcome?_eq_some_iff] at hf
    simp [Evaluator.start, Moment.evaluator] at hf
  · intro kind hkind m m' s' left' hkeeps hm hstep
    obtain rfl := List.mem_singleton.1 hkind
    obtain rfl := hkeeps.eq (by decide)
    obtain rfl := hkeeps.left_eq (by decide)
    exact hstep.isTraced hgrid hplain hm

end Moment

/-- A function that fails with a fault that tells another cell. -/
def GridFunction.misplaced : GridFunction :=
  ⟨fun _ => .error (.fault (.circular ⟨1, 1⟩ [])), none⟩

namespace Evaluator

open Moment

variable {ev : Evaluator} {a : Address}

/-- The origin of the failure that is kept for a cell. -/
def origin? (ev : Evaluator) (a : Address) : Option Address :=
  match ev.outcome? a with
  | some (.error f) => some f.origin
  | _ => none

theorem exists_of_origin? (h : ev.origin? a = some b) :
    ∃ f, ev.outcome? a = some (.error f) ∧ f.origin = b := by
  unfold origin? at h
  split at h
  · rename_i f hf
    exact ⟨f, hf, Option.some.inj h⟩
  · cases h

/-- Where nothing gives up, calls are answered by steps of evaluations. After such steps each failed
cell has its failure from the origin of the failure, which lies inside of the grid and has failed
with it: the failure has spread from there, and unless the cell itself is the origin, it is that of
the first cell for which the formula asks and which has no number. A cell that cannot be read has
the failure of that. A failure that turns up again has the origin that it had before. -/
theorem provenance_of_failures {s : Calculation} {table : RawValue} {marker : Option String}
    (hgrid : Grid.ofRaw table marker = .ok s.grid) (hplain : s.functions.IsPlain) :
    let ev := start s.grid s.functions s.scale
    (s.NeverAborts → ∀ calls, (idle ev).Reaches [.evaluation] (idle (ev.after calls))) ∧
      (∀ ev', (idle ev).Reaches [.evaluation] (idle ev') → ∀ c f,
        ev'.outcome? c = some (.error f) →
          s.grid.Contains f.origin ∧ ev'.outcome? f.origin = some (.error f) ∧
          Relation.ReflTransGen (ev'.Spreads f) f.origin c ∧
          (c ≠ f.origin → ∃ a, ev'.nextRequest? c = some a ∧
            c ∈ ev'.dependencies.dependantsOf a ∧ ev'.outcome? a = some (.error f)) ∧
          ∀ cell formula fault, s.grid.cell? c = some cell →
            cell.content = .unreadable formula fault → f = ⟨fault, c, .construction⟩) ∧
        ∀ kinds m m' f f' n, (idle ev).Reaches kinds m → m.Reaches kinds m' → m.Bears f →
          m'.Bears f' → f.occurrence = .evaluation n → f'.occurrence = .evaluation n → f' = f := by
  intro ev
  have hstart : (idle ev).IsOrderly s fun _ => False := isOrderly_start
  refine ⟨fun hsafe => hstart.reaches_after hgrid hsafe, fun ev' hreaches c f hf => ?_, ?_⟩
  · have htraced : (idle ev').IsTraced := hreaches.isTraced hgrid hplain
    obtain ⟨s', left', hkeeps, horderly, -⟩ := hreaches.isOrderly hgrid hstart
    have hs : ev'.grid = s.grid :=
      (congrArg Calculation.grid horderly.calculation_eq).trans hkeeps.grid_eq
    obtain ⟨hfails, hexplains⟩ := htraced f c hf
    have horigin : ev'.outcome? f.origin = some (.error f) := hfails.outcome?_eq
    refine ⟨hs ▸ hexplains.contains, horigin, hexplains.spreads, fun hc => ?_,
      hs ▸ hexplains.unreadable⟩
    obtain ⟨a, hnext, hasked, rfl | ha⟩ := hexplains.request hc
    · exact ⟨_, hnext, hasked, horigin⟩
    · exact ⟨a, hnext, hasked, ha⟩
  · intro kinds m m' f f' n hreaches hlater hf hf' hn hn'
    exact hlater.eq_of_occurrence_eq (hreaches.isNumbered isNumbered_start).1 hf hf' hn hn'

/-- The failure of the right cell of the cycle has come from a cell that has failed with it. -/
theorem provenance_twoCycle :
    let ev := (start Grid.twoCycle .standard 28).after [.one ⟨0, 0⟩]
    ∃ f, ev.outcome? ⟨0, 1⟩ = some (.error f) ∧ Grid.twoCycle.Contains f.origin ∧
      ev.outcome? f.origin = some (.error f) ∧
      Relation.ReflTransGen (ev.Spreads f) f.origin ⟨0, 1⟩ := by
  intro ev
  obtain ⟨hreaches, hfailed, -⟩ := provenance_of_failures (s := .twoCycle) Grid.ofRaw_twoCycleTable
    Registry.isPlain_standard
  have hsafe : Calculation.twoCycle.NeverAborts := ⟨Registry.neverAborts_standard, by decide⟩
  have hstate : ev.state ⟨0, 1⟩ = .failed := by decide +kernel
  obtain ⟨f, hf⟩ := state_eq_failed_iff.1 hstate
  obtain ⟨hcontains, horigin, hspreads, -⟩ := hfailed ev (hreaches hsafe _) _ f hf
  exact ⟨f, hf, hcontains, horigin, hspreads⟩

/-- The origin of a failure need not have failed with it if a division has left it in progress, and
it need not lie inside of the grid if a function fails with a fault that is not plain. -/
theorem provenance_large :
    let s : Calculation := ⟨Grid.large, .standard, -1⟩
    let ev := (start s.grid s.functions s.scale).after [.one ⟨0, 1⟩, .one ⟨0, 0⟩]
    let misplaced : Registry := .register .standard "first" .misplaced none
    let ev' := (start Grid.first misplaced 28).after [.one ⟨0, 0⟩]
    Grid.ofRaw Grid.largeTable (some "=") = .ok s.grid ∧ s.functions.NeverAborts ∧
      (∃ f, ev.outcome? ⟨0, 0⟩ = some (.error f) ∧ f.origin = ⟨0, 1⟩ ∧
        ev.state ⟨0, 1⟩ = .inProgress) ∧
      Grid.ofRaw Grid.firstTable (some "=") = .ok Grid.first ∧
      ∃ f, ev'.outcome? ⟨0, 0⟩ = some (.error f) ∧ ¬Grid.first.Contains f.origin := by
  intro s ev misplaced ev'
  have hleft : ev.origin? ⟨0, 0⟩ = some ⟨0, 1⟩ := by decide +kernel
  have houtside : ev'.origin? ⟨0, 0⟩ = some ⟨1, 1⟩ := by decide +kernel
  obtain ⟨f, hf, horigin⟩ := exists_of_origin? hleft
  obtain ⟨f', hf', horigin'⟩ := exists_of_origin? houtside
  refine ⟨Grid.ofRaw_largeTable, Registry.neverAborts_standard,
    ⟨f, hf, horigin, by decide +kernel⟩, Grid.ofRaw_firstTable, f', hf', ?_⟩
  rw [horigin']
  decide

end Evaluator

end DecimalSheet
