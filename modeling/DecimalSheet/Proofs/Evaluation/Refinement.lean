import DecimalSheet.Proofs.Evaluation.Cycles
import DecimalSheet.Proofs.Evaluation.Soundness

/-!
# Evaluators and recursion

An evaluator that has found nothing yet comes to the same outcome as evaluation by recursion, with
the same error if there is one. A stack of formulas that wait has a meaning, namely what recursion
would make of the formula on top and then of those below, and every turn keeps the meaning. That
outcomes are kept makes no difference: as long as nothing has failed, only numbers are kept, and
from a cell with a number no cell on the stack can be reached, so recursion would come to the same
number here. The first failure ends the evaluation.

## Main definitions

* `Outcome.seen`: an outcome as evaluation by recursion knows it
* `Calculation.resume s below x`: what comes of the formulas `below` when `x` is handed to them
* `Run.meaning s r`: what recursion would come to from here
* `Run.IsFresh`: nothing has failed so far, or else the evaluation is about to end

## Main results

* `Run.IsSound.turn_refines`: a turn keeps the meaning
* `Evaluator.evaluate_eq_valueAlong`: the outcome of a cell is that of recursion
-/

namespace DecimalSheet

/-- An outcome as evaluation by recursion knows it: failures count as their errors. -/
def Outcome.seen (o : Outcome) : Except Stop Decimal := o.mapError fun f => .error f.error

namespace Calculation

/-- What comes of formulas that wait when a value, or what comes instead, is handed to the topmost
one. -/
def resume (s : Calculation) : List Frame → Except Stop Decimal → Except Stop Decimal
  | [], x => x
  | frame :: below, x =>
    s.resume below <| Except.mapError (Stop.tag frame.cell) <|
      x >>= fun v => (frame.next v).resultBy (s.valueAlong (frame.cell :: below.map (·.cell)))

variable {s : Calculation} {a c target : Address} {below : List Frame} {k m n : Nat}

theorem resume_abort {reason : Abort} :
    s.resume below (.error (.abort reason)) = .error (.abort reason) := by
  induction below with
  | nil => rfl
  | cons frame below ih => exact ih

/-- The error of a failure goes through a formula that waits. -/
theorem resume_cons_error {frame : Frame} {f : Failure} :
    s.resume (frame :: below) (.error (.error f.error)) =
      s.resume below (.error (.error f.error)) :=
  rfl

/-- Recursion comes to a number wherever it comes to it, unless it has been there before. -/
theorem Waits.valueAlong_eq {v : Decimal} (hwaits : s.Waits target m a below)
    (hv : s.Derivable a v) : s.valueAlong (below.map (·.cell)) a = .ok v := by
  have hgrounded := hv.isGrounded
  rw [hgrounded.valueAlong_eq_nil, valueAlong_eq_ok_iff]
  · exact hv
  · -- a cell on the stack that `a` reaches would reach itself through `a`
    intro b hab hb
    exact hgrounded.not_transGen ((hwaits.transGen hb).trans_right hab)

end Calculation

/-- No failures are kept. -/
def Evaluator.KeepsNumbers (ev : Evaluator) : Prop :=
  ∀ (a : Address) (o : Outcome), ev.status[a]? = some (.finished o) → ∃ v, o = .ok v

/-- Nothing has failed so far, and the dependencies are those of the stack. -/
structure Evaluator.IsFresh (ev : Evaluator) (stack : List Address) : Prop where
  unfailed : ev.KeepsNumbers
  chains : ev.dependencies.Chains stack
  unasked : ∀ a : Address, ev.status[a]? = none → ev.dependencies.dependantsOf a = []

namespace Run

/-- What recursion would come to from here. -/
def meaning (s : Calculation) (r : Run) : Except Stop Decimal :=
  match r.phase with
  | .running c p below =>
    s.resume below
      ((p.resultBy (s.valueAlong (c :: below.map (·.cell)))).mapError (Stop.tag c))
  | .returning o below => s.resume below o.seen
  | .aborted reason => .error (.abort reason)

/-- Nothing has failed so far, or else the evaluation is about to end. -/
def IsFresh (r : Run) : Prop :=
  match r.phase with
  | .running c _ below => r.evaluator.IsFresh (c :: below.map (·.cell))
  | .returning (.ok _) below => r.evaluator.IsFresh (below.map (·.cell))
  | .returning (.error _) _ | .aborted _ => True

end Run

namespace Evaluator

variable {s : Calculation} {ev : Evaluator} {a c target : Address} {below : List Frame}
  {k m n : Nat} {stack : List Address}

/-- A cell gets a status that is no failure. -/
theorem IsFresh.insert {ev' : Evaluator} {cell : Address} {st : Status}
    (hstatus : ev'.status = ev.status.insert cell st)
    (hdependencies : ev'.dependencies = ev.dependencies)
    (hst : ∀ o, st = .finished o → ∃ v, o = .ok v) (hunfailed : ev.KeepsNumbers)
    (hchains : ev.dependencies.Chains stack)
    (hunasked : ∀ a, a ≠ cell → ev.status[a]? = none → ev.dependencies.dependantsOf a = []) :
    ev'.IsFresh stack := by
  refine ⟨fun a o h => ?_, hdependencies ▸ hchains, fun a h => ?_⟩
  -- Only the one cell has a new status, and it is not a cell without one.
  · rw [hstatus, Calculation.getElem?_insert] at h
    split at h
    · exact hst o (Option.some.inj h)
    · exact hunfailed a o h
  · rw [hstatus, Calculation.getElem?_insert] at h
    split at h
    · cases h
    · rename_i hne
      rw [hdependencies]
      exact hunasked a hne h

/-- A cell that has not begun before comes to what recursion makes of its content. -/
theorem startCell_refines (hregular : ev.calculation.IsRegular) {cell : Cell}
    (hcell : ev.calculation.grid.cell? a = some cell) (hstack : a ∉ below.map (·.cell))
    (hunfailed : ev.KeepsNumbers)
    (hunasked : ∀ b, b ≠ a → ev.status[b]? = none → ev.dependencies.dependantsOf b = [])
    (hchains : ev.dependencies.Chains (below.map (·.cell)))
    (hbegin : ev.dependencies.Chains (a :: below.map (·.cell))) :
    (ev.startCell a cell.content below).IsFresh ∧
      (ev.startCell a cell.content below).meaning ev.calculation =
        ev.calculation.resume below (ev.calculation.valueAlong (below.map (·.cell)) a) := by
  have hvalue := Calculation.valueAlong_of_cell? hcell hstack
  unfold startCell
  split
  · rename_i value hcontent
    rw [hcontent] at hvalue
    rw [hvalue]
    refine ⟨IsFresh.insert rfl rfl ?_ hunfailed hchains hunasked, rfl⟩
    rintro o ⟨rfl⟩
    exact ⟨value, rfl⟩
  · rename_i fault hcontent
    simp only [hcontent, ← Failure.error_eq_tag fault a .construction] at hvalue
    rw [hvalue]
    exact ⟨trivial, rfl⟩
  · rename_i f tree references hcontent
    have htree : ev.calculation.tree? a = some tree :=
      Calculation.tree?_eq_some_iff.2 ⟨cell, f, references, hcell, hcontent⟩
    -- The program of the tree computes its value, with the cell on the path.
    have hprogram : (tree.program ev.setting Expr.maxHeight).resultBy
        (ev.calculation.valueAlong (a :: below.map (·.cell))) = _ :=
      Expr.resultBy_program (fun b hb => Calculation.valueAlong_of_not_contains hb) tree _
        (hregular a tree htree).2
    simp only [hcontent] at hvalue
    rw [hvalue, ← hprogram]
    refine ⟨IsFresh.insert rfl rfl ?_ hunfailed hbegin hunasked, rfl⟩
    rintro o ⟨⟩

/-- A request comes to what recursion comes to for the stack. -/
theorem request_refines (hregular : s.IsRegular) (hsafe : s.NeverAborts)
    (hs : ev.calculation = s) (ha : s.grid.Contains a) (hwaits : s.Waits target m a below)
    (hstatus : s.Remembers ev.status (below.map (·.cell)))
    (hunfailed : ev.KeepsNumbers)
    (hunasked : ∀ b, b ≠ a → ev.status[b]? = none → ev.dependencies.dependantsOf b = [])
    (hcycle : a ∈ below.map (·.cell) →
      ev.dependencies.findCycle a = Calculation.loop (below.map (·.cell)) a)
    (hchains : a ∉ below.map (·.cell) → ev.dependencies.Chains (below.map (·.cell)))
    (hbegin : ev.status[a]? = none → ev.dependencies.Chains (a :: below.map (·.cell))) :
    (ev.request a below).IsFresh ∧
      (ev.request a below).meaning s = s.resume below (s.valueAlong (below.map (·.cell)) a) := by
  subst hs
  unfold request
  split
  · -- A kept number: recursion comes to it again.
    rename_i o hfinished
    obtain ⟨v, rfl⟩ := hunfailed a o hfinished
    have hstack : a ∉ below.map (·.cell) := hstatus.not_mem (by simp [hfinished])
    refine ⟨⟨hunfailed, hchains hstack, fun b hb => hunasked b ?_ hb⟩, ?_⟩
    · rintro rfl
      simp [hfinished] at hb
    · have hvalue := ((hstatus.judges a _ hfinished).ok_iff v).1 rfl
      rw [hwaits.valueAlong_eq hvalue]
      rfl
  · -- On the stack: both find the same cycle.
    rename_i hinProgress
    have hstack := (hstatus.inProgress_iff hsafe).1 hinProgress
    refine ⟨trivial, ?_⟩
    rw [Calculation.valueAlong_of_mem ha hstack, ← hcycle hstack]
    rfl
  · -- No status: both look at the content of the cell.
    rename_i hnew
    have hstack : a ∉ below.map (·.cell) := hstatus.not_mem (by simp [hnew])
    obtain ⟨cell, hcell⟩ := Grid.exists_cell?_of_contains ha
    rw [show ev.grid.cell? a = some cell from hcell]
    exact startCell_refines hregular hcell hstack hunfailed hunasked (hchains hstack) (hbegin hnew)

/-- The topmost cell of the stack asks for a cell on the stack. -/
theorem IsFresh.findCycle_depend (h : ev.IsFresh (c :: stack)) (hnodup : (c :: stack).Nodup)
    (ha : a ∈ c :: stack) :
    (ev.depend a c).dependencies.findCycle a = Calculation.loop (c :: stack) a := by
  obtain ⟨upper, lower, hsplit, hupper⟩ := List.eq_append_cons_of_mem ha
  have hc : (upper ++ [a]).head? = some c := by
    cases upper <;> simp_all
  -- The path up to `a` is what lies above it on the stack.
  have hloop : Calculation.loop (c :: stack) a = a :: upper := by
    rw [Calculation.loop, hsplit, List.takeWhile_append_of_pos]
    · simp
    · intro b hb
      have hne : b ≠ a := fun hba => hupper (hba ▸ hb)
      simpa using hne
  rw [hloop]
  exact Dependencies.findCycle_record (hsplit ▸ h.chains) (hsplit ▸ hnodup) hc

/-- Going on with a formula comes to what recursion makes of what is left of the formula. -/
theorem proceed_refines (hregular : s.IsRegular) (hsafe : s.NeverAborts) {p : Program Decimal}
    (hs : ev.calculation = s) (hcomputes : s.Computes c k p) (hwaits : s.Waits target m c below)
    (hstatus : s.Remembers ev.status (c :: below.map (·.cell)))
    (hfresh : ev.IsFresh (c :: below.map (·.cell))) :
    (ev.proceed c p below).IsFresh ∧
      (ev.proceed c p below).meaning s = s.resume below
        ((p.resultBy (s.valueAlong (c :: below.map (·.cell)))).mapError (Stop.tag c)) := by
  cases p with
  | done value =>
    refine ⟨IsFresh.insert rfl rfl ?_ hfresh.unfailed hfresh.chains.tail
      fun b _ => hfresh.unasked b, rfl⟩
    rintro o ⟨rfl⟩
    exact ⟨value, rfl⟩
  | raise raised =>
    cases raised with
    | fault fault =>
      refine ⟨trivial, congrArg (s.resume below) ?_⟩
      show Except.error (Stop.error _) =
        Except.error (Stop.error ((CellError.ofFault fault).tag c))
      rw [← Failure.error_eq_tag]
      rfl
    | abort reason => exact ⟨trivial, Calculation.resume_abort.symm⟩
  | ask a next =>
    -- The request adds an edge from `a`, and no other.
    have hdependants : ∀ b, b ≠ a →
        (ev.depend a c).dependencies.dependantsOf b = ev.dependencies.dependantsOf b := by
      intro b hb
      exact Dependencies.dependantsOf_record.trans (if_neg hb)
    refine request_refines hregular hsafe hs hcomputes.contains (.cons hcomputes hwaits) hstatus
      hfresh.unfailed ?_ ?_ ?_ ?_
    · -- cells without a status have not been asked for
      intro b hb hnew
      rw [hdependants b hb]
      exact hfresh.unasked b hnew
    · intro ha
      exact hfresh.findCycle_depend hstatus.nodup ha
    · -- a kept outcome leaves the edges of the stack alone
      intro ha
      exact hfresh.chains.congr fun b hb => hdependants b fun hba => ha (hba ▸ hb)
    · -- a cell that begins has been asked for by `c` alone
      intro hnew
      have hstack : a ∉ c :: below.map (·.cell) :=
        hstatus.not_mem (by simp [show ev.status[a]? = none from hnew])
      have hasked : (ev.depend a c).dependencies.dependantsOf a = [c] := by
        refine Dependencies.dependantsOf_record.trans ?_
        rw [if_pos rfl, hfresh.unasked a hnew]
        rfl
      exact (hfresh.chains.congr fun b hb => hdependants b fun hba => hstack (hba ▸ hb)).cons hasked

end Evaluator

namespace Run

variable {s : Calculation} {target : Address} {n : Nat} {r : Run}

/-- One turn keeps the meaning. -/
theorem IsSound.turn_refines (hregular : s.IsRegular) (hsafe : s.NeverAborts)
    (h : r.IsSound s target n)
    (hfresh : r.IsFresh) (hover : ¬r.IsOver) :
    r.turn.IsFresh ∧ r.turn.meaning s = r.meaning s := by
  obtain ⟨ev, phase⟩ := r
  obtain ⟨hs, hphase⟩ := h
  cases phase with
  | running c p below =>
    obtain ⟨k, m, hcomputes, hwaits, hstatus, -⟩ := hphase
    exact Evaluator.proceed_refines hregular hsafe hs hcomputes hwaits hstatus hfresh
  | returning o below =>
    obtain ⟨a, m, ho, hwaits, hstatus, -⟩ := hphase
    cases hwaits with
    | nil => exact absurd trivial hover
    | cons hcomputes hwaits =>
      cases o with
      | ok v =>
        -- the value is handed to the topmost formula, which goes on
        exact Evaluator.proceed_refines hregular hsafe hs (hcomputes.of_ask ho.valueAlong_eq) hwaits
          hstatus hfresh
      | error f => exact ⟨trivial, Calculation.resume_cons_error.symm⟩
  | aborted reason => exact absurd trivial hover

theorem seen_of_isOver (hover : r.IsOver) {o : Outcome} (ho : (r.complete n).2 = .ok o) :
    o.seen = r.meaning s := by
  obtain ⟨ev, phase⟩ := r
  rw [complete.eq_def] at ho
  cases phase with
  | running => exact hover.elim
  | returning o' below =>
    cases below with
    | nil =>
      obtain rfl := Except.ok.inj ho
      rfl
    | cons => exact hover.elim
  | aborted reason => cases ho

/-- An evaluation comes to what recursion would come to from its beginning. -/
theorem IsSound.seen_complete (hregular : s.IsRegular) (hsafe : s.NeverAborts)
    (h : r.IsSound s target n)
    (hfresh : r.IsFresh) {o : Outcome} (ho : (r.complete n).2 = .ok o) : o.seen = r.meaning s := by
  -- Induction on the turns to come: the meaning stays what it was at the beginning.
  induction n generalizing r with
  | zero => exact seen_of_isOver h.isOver ho
  | succ n ih =>
    by_cases hover : r.IsOver
    · exact seen_of_isOver hover ho
    · obtain ⟨hturn, hmeaning⟩ := h.turn_refines hregular hsafe hfresh hover
      rw [complete_succ hover] at ho
      rw [← hmeaning]
      exact ih (h.turn hregular hover) hturn ho

end Run

namespace Evaluator

variable {s : Calculation} {a : Address}

/-- The evaluator that has found nothing comes to the outcome of recursion. -/
theorem seen_of_compute_start (hregular : s.IsRegular) (hsafe : s.NeverAborts)
    (ha : s.grid.Contains a) {o : Outcome}
    (ho : ((start s.grid s.functions s.scale).compute s.grid.turnBound a).2 = .ok o) :
    o.seen = s.valueAlong [] a := by
  have hstatus : s.Remembers ∅ (List.map Frame.cell []) := Calculation.remembers_empty
  have hempty : ∀ b, Dependencies.empty.dependantsOf b = [] := by
    intro b
    simp [Dependencies.dependantsOf, Dependencies.empty]
  have hsound : ((start s.grid s.functions s.scale).request a []).IsSound s a s.grid.turnBound :=
    request_isSound hregular rfl ha .nil hstatus Calculation.pending_le_turnBound
  have hrefines : ((start s.grid s.functions s.scale).request a []).IsFresh ∧
      ((start s.grid s.functions s.scale).request a []).meaning s = s.valueAlong [] a :=
    request_refines hregular hsafe rfl ha .nil hstatus (by intro b o hb; simp [start] at hb)
      (fun b _ _ => hempty b) (fun h => absurd h List.not_mem_nil)
      (fun _ => Dependencies.chains_nil) fun _ => Dependencies.chains_singleton (hempty a)
  rw [hsound.seen_complete hregular hsafe hrefines.1 ho, hrefines.2]

/-- A new evaluator of a grid that was built from a table comes to the number or to the error of
recursion, for every cell of the grid. -/
theorem evaluate_eq_valueAlong {table : RawValue} {marker : Option String}
    (hgrid : Grid.ofRaw table marker = .ok s.grid)
    (hshallow : ∀ b tree, s.tree? b = some tree → tree.IsShallow)
    (hfunctions : s.functions.NeverAborts) (hscale : 0 ≤ s.scale) (ha : s.grid.Contains a) :
    ∃ o, ((start s.grid s.functions s.scale).evaluate a).2 = .ok o ∧
      o.mapError (fun f => Stop.error f.error) = s.valueAlong [] a := by
  have hregular := Calculation.isRegular_of_ofRaw hgrid hshallow
  have hsafe : s.NeverAborts := ⟨hfunctions, hscale⟩
  obtain ⟨o, ho, -⟩ := (start_isSound.compute hregular ha).exists_of_neverAborts hsafe
  refine ⟨o, ?_, seen_of_compute_start hregular hsafe ha ho⟩
  rw [evaluate_of_contains ha]
  exact congrArg (Except.mapError Raised.abort) ho

theorem evaluate_twoCycle :
    ∃ o, ((start Grid.twoCycle .standard 28).evaluate ⟨0, 0⟩).2 = .ok o ∧
      o.mapError (fun f => Stop.error f.error) =
        .error (.error ⟨.circular ⟨0, 0⟩ [⟨0, 0⟩, ⟨0, 1⟩], some ⟨0, 0⟩⟩) := by
  rw [← Calculation.valueAlong_twoCycle]
  exact evaluate_eq_valueAlong (s := .twoCycle) Grid.ofRaw_twoCycleTable
    (fun _ _ => Calculation.isShallow_of_tree?_twoCycle) Registry.neverAborts_standard (by decide)
    (by decide)

end Evaluator

end DecimalSheet
