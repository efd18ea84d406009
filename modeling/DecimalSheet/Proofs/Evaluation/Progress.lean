import DecimalSheet.Proofs.Evaluation.Soundness

/-!
# Progress of evaluators

What an evaluator knows of a cell only ever advances: the cell is begun, and then its outcome is
found, which is kept for good. Dependencies are added and never removed, and the formula of a cell
is started only if the cell has not been begun before. This holds for whatever formulas do, also if
an evaluation is given up.

A request for a cell comes to one of a few ends, which are listed once and for all.

## Main definitions

* `Status.Next`, `CellState.Next`: how the status and the state of a cell may change
* `Evaluator.Advances`: an evaluator knows what another one knew, and more
* `Evaluator.RequestsTo`: the ends of a request

## Main results

* `Evaluator.requestsTo_request`: a request comes to one of its ends
* `Evaluator.advances_request`, `Evaluator.advances_proceed`: requests and formulas only advance
* `Evaluator.Advances.outcome?_eq`: an outcome that is kept stays as it is
-/

namespace DecimalSheet

/-! ## Statuses and states -/

/-- The status of a cell, or its lack, and what it may change to: a cell is begun, and then its
outcome is found. -/
inductive Status.Next : Option Status → Option Status → Prop
  | begin : Next none (some .inProgress)
  | finish (o : Outcome) : Next (some .inProgress) (some (.finished o))

/-- The state of a cell and what it may change to. -/
inductive CellState.Next : CellState → CellState → Prop
  | begin : Next notStarted inProgress
  | succeed : Next inProgress done
  | fail : Next inProgress failed

namespace Status

variable {x y : Option Status} {o : Outcome}

theorem Next.state (h : Next x y) : CellState.Next (.ofStatus? x) (.ofStatus? y) := by
  cases h with
  | begin => exact .begin
  | finish o =>
    cases o with
    | ok v => exact .succeed
    | error f => exact .fail

/-- An outcome that has been found is the last status. -/
theorem eq_of_reflTransGen_finished (h : Relation.ReflTransGen Next (some (finished o)) x) :
    x = some (finished o) := by
  rcases Relation.ReflTransGen.cases_head h with rfl | ⟨y, hy, -⟩
  · rfl
  · cases hy

/-- A cell that has not been begun later has not been begun before. -/
theorem eq_none_of_reflTransGen (h : Relation.ReflTransGen Next x none) : x = none := by
  rcases Relation.ReflTransGen.cases_tail h with rfl | ⟨y, -, hy⟩
  · rfl
  · cases hy

/-- A cell without an outcome may get one. -/
theorem reflTransGen_finished (h : x = none ∨ x = some inProgress) :
    Relation.ReflTransGen Next x (some (finished o)) := by
  rcases h with rfl | rfl
  · exact .tail (.single .begin) (.finish o)
  · exact .single (.finish o)

end Status

/-- The event is that the formula of the cell is started. -/
def Event.starts (a : Address) : Event → Bool
  | started cell _ => cell == a
  | _ => false

namespace Evaluator

variable {ev ev' ev'' : Evaluator} {a b c : Address} {o : Outcome} {v : Decimal}
  {below : List Frame}

/-! ## What is kept -/

/-- The number that is kept for a cell. -/
def number? (ev : Evaluator) (a : Address) : Option Decimal :=
  (ev.outcome? a).bind Except.toOption

theorem outcome?_eq_some_iff : ev.outcome? a = some o ↔ ev.status[a]? = some (.finished o) := by
  unfold outcome?
  split <;> simp_all

theorem number?_eq_some_iff : ev.number? a = some v ↔ ev.outcome? a = some (.ok v) := by
  rw [number?, Option.bind_eq_some_iff]
  constructor
  · rintro ⟨o, ho, hv⟩
    cases o with
    | ok w =>
      obtain rfl := Option.some.inj hv
      exact ho
    | error f => cases hv
  · exact fun h => ⟨.ok v, h, rfl⟩

theorem number?_eq_none (h : ∀ v, ev.status[a]? ≠ some (.finished (.ok v))) :
    ev.number? a = none := by
  rw [Option.eq_none_iff_forall_ne_some]
  exact fun v hv => h v (outcome?_eq_some_iff.1 (number?_eq_some_iff.1 hv))

theorem state_eq_inProgress_iff : ev.state a = .inProgress ↔ ev.status[a]? = some .inProgress := by
  unfold state CellState.ofStatus?
  split <;> simp_all

/-- A cell is done exactly if a number is kept for it. -/
theorem state_eq_done_iff : ev.state a = .done ↔ ∃ v, ev.outcome? a = some (.ok v) := by
  simp only [outcome?_eq_some_iff]
  unfold state CellState.ofStatus?
  split <;> simp_all

/-- A cell has failed exactly if a failure is kept for it. -/
theorem state_eq_failed_iff : ev.state a = .failed ↔ ∃ f, ev.outcome? a = some (.error f) := by
  simp only [outcome?_eq_some_iff]
  unfold state CellState.ofStatus?
  split <;> simp_all

/-! ## Advancing -/

/-- How often the formula of a cell has been started. -/
def startCount (ev : Evaluator) (a : Address) : Nat := ev.history.countP (Event.starts a)

/-- One evaluator has come from another of the same grid: statuses have advanced, dependencies have
been added, and no formula has been started again. -/
structure Advances (ev ev' : Evaluator) : Prop where
  grid_eq : ev'.grid = ev.grid
  status : ∀ a : Address, Relation.ReflTransGen Status.Next ev.status[a]? ev'.status[a]?
  dependants : ∀ a : Address, ∀ b ∈ ev.dependencies.dependantsOf a,
    b ∈ ev'.dependencies.dependantsOf a
  startCount : ∀ a : Address, ev'.startCount a = ev.startCount a ∨
    ev.status[a]? = none ∧ ev'.status[a]? ≠ none ∧ ev'.startCount a = ev.startCount a + 1

theorem Advances.refl (ev : Evaluator) : ev.Advances ev :=
  ⟨rfl, fun _ => .refl, fun _ _ => id, fun _ => .inl rfl⟩

theorem Advances.trans (h : ev.Advances ev') (h' : ev'.Advances ev'') : ev.Advances ev'' where
  grid_eq := h'.grid_eq.trans h.grid_eq
  status a := (h.status a).trans (h'.status a)
  dependants a b hb := h'.dependants a b (h.dependants a b hb)
  startCount a := by
    -- The cell is started in the first part or in the second, and not in both.
    rcases h.startCount a with heq | ⟨hnone, hsome, hcount⟩ <;>
      rcases h'.startCount a with heq' | ⟨hnone', hsome', hcount'⟩
    · exact .inl (heq'.trans heq)
    · refine .inr ⟨?_, hsome', by rw [hcount', heq]⟩
      exact Status.eq_none_of_reflTransGen (hnone' ▸ h.status a)
    · refine .inr ⟨hnone, fun hnone'' => hsome ?_, by rw [heq', hcount]⟩
      exact Status.eq_none_of_reflTransGen (hnone'' ▸ h'.status a)
    · exact absurd hnone' hsome

theorem Advances.outcome?_eq (h : ev.Advances ev') (ho : ev.outcome? a = some o) :
    ev'.outcome? a = some o := by
  rw [outcome?_eq_some_iff] at ho ⊢
  exact Status.eq_of_reflTransGen_finished (ho ▸ h.status a)

theorem Advances.number?_eq (h : ev.Advances ev') (hv : ev.number? a = some v) :
    ev'.number? a = some v :=
  number?_eq_some_iff.2 (h.outcome?_eq (number?_eq_some_iff.1 hv))

/-- The state of a cell changes only as it may. -/
theorem Advances.state (h : ev.Advances ev') (a : Address) :
    Relation.ReflTransGen CellState.Next (ev.state a) (ev'.state a) :=
  (h.status a).lift CellState.ofStatus? fun _ _ => Status.Next.state

/-- Telling an event that is not a start. -/
theorem advances_note {event : Event} (h : ∀ a, event.starts a = false) :
    ev.Advances (ev.note event) where
  grid_eq := rfl
  status _ := .refl
  dependants _ _ := id
  startCount a := .inl (by simp [Evaluator.startCount, note, h a])

theorem advances_countFailure : ev.Advances ev.countFailure :=
  ⟨rfl, fun _ => .refl, fun _ _ => id, fun _ => .inl rfl⟩

theorem advances_depend : ev.Advances (ev.depend a c) where
  grid_eq := rfl
  status _ := .refl
  dependants _ _ hb := Dependencies.mem_dependantsOf_record.2 (.inl hb)
  startCount b := .inl (by simp [Evaluator.startCount, depend, note, Event.starts])

/-- A new status of one cell is an advance if the status of that cell advances. -/
theorem advances_status_insert {st : Status}
    (h : Relation.ReflTransGen Status.Next ev.status[c]? (some st)) (a : Address) :
    Relation.ReflTransGen Status.Next ev.status[a]? (ev.status.insert c st)[a]? := by
  rw [Calculation.getElem?_insert]
  split
  · rename_i hac
    exact hac ▸ h
  · exact .refl

theorem advances_keep (h : ev.status[c]? = none ∨ ev.status[c]? = some .inProgress) :
    ev.Advances (ev.keep c o) where
  grid_eq := rfl
  status := advances_status_insert (Status.reflTransGen_finished h)
  dependants _ _ := id
  startCount a := by
    refine .inl ?_
    cases o <;> simp [Evaluator.startCount, keep, note, outcomeEvent, Event.starts]

theorem advances_startFormula {source : String} {tree : Expr} (h : ev.status[c]? = none) :
    ev.Advances (ev.startFormula c source tree below).evaluator where
  grid_eq := rfl
  status := advances_status_insert (h ▸ .single .begin)
  dependants _ _ := id
  startCount a := by
    -- Only for the cell itself there is one more start, and it had no status.
    by_cases hca : c = a
    · subst hca
      refine .inr ⟨h, ?_, ?_⟩
      · simp [startFormula, note]
      · simp [Evaluator.startCount, startFormula, note, Event.starts]
    · refine .inl ?_
      simp [Evaluator.startCount, startFormula, note, Event.starts, hca]

/-! ## Requests -/

/-- The ends of a request for a cell on behalf of the cells that wait. -/
inductive RequestsTo (ev : Evaluator) (a : Address) (below : List Frame) : Run → Prop
  /-- An outcome is kept. -/
  | kept {o : Outcome} (h : ev.status[a]? = some (.finished o)) :
    RequestsTo ev a below ⟨ev, .returning o below⟩
  | refused (h : ev.status[a]? = some .inProgress) :
    RequestsTo ev a below (ev.refuseCircular a below)
  | literal {cell : Cell} {value : Decimal} (h : ev.status[a]? = none)
    (hcell : ev.grid.cell? a = some cell) (hcontent : cell.content = .literal value) :
    RequestsTo ev a below (ev.settle a (.ok value) below)
  | unreadable {cell : Cell} {formula : Option Formula} {fault : Fault} (h : ev.status[a]? = none)
    (hcell : ev.grid.cell? a = some cell) (hcontent : cell.content = .unreadable formula fault) :
    RequestsTo ev a below
      (ev.settle a (.error ⟨fault, fault.ownOrigin?.getD a, .construction⟩) below)
  | formula {cell : Cell} {f : Formula} {tree : Expr} {references : Option (List Reference)}
    (h : ev.status[a]? = none) (hcell : ev.grid.cell? a = some cell)
    (hcontent : cell.content = .formula f tree references) :
    RequestsTo ev a below (ev.startFormula a f.source tree below)
  | outside (h : ev.status[a]? = none) (hcell : ev.grid.cell? a = none) :
    RequestsTo ev a below (ev.refuse a (.outsideGrid a) below)

theorem requestsTo_request (ev : Evaluator) (a : Address) (below : List Frame) :
    ev.RequestsTo a below (ev.request a below) := by
  unfold request
  split
  · rename_i o h
    exact .kept h
  · rename_i h
    exact .refused h
  · rename_i h
    split
    · rename_i cell hcell
      unfold startCell
      split
      · rename_i value hcontent
        exact .literal h hcell hcontent
      · rename_i formula fault hcontent
        exact .unreadable h hcell hcontent
      · rename_i f tree references hcontent
        exact .formula h hcell hcontent
    · rename_i hcell
      exact .outside h hcell

theorem RequestsTo.advances {r : Run} (h : ev.RequestsTo a below r) : ev.Advances r.evaluator := by
  cases h with
  | kept => exact .refl ev
  | refused => exact (advances_note fun _ => rfl).trans advances_countFailure
  | literal hnew | unreadable hnew => exact advances_keep (.inl hnew)
  | formula hnew => exact advances_startFormula hnew
  | outside => exact advances_countFailure

theorem advances_request : ev.Advances (ev.request a below).evaluator :=
  (requestsTo_request ev a below).advances

/-- A formula of a cell in progress goes on. -/
theorem advances_proceed {p : Program Decimal} (hc : ev.status[c]? = some .inProgress) :
    ev.Advances (ev.proceed c p below).evaluator := by
  cases p with
  | done value => exact advances_keep (.inr hc)
  | raise raised =>
    cases raised with
    | fault fault => exact advances_countFailure.trans (advances_keep (.inr hc))
    | abort reason => exact .refl ev
  | ask a next => exact advances_depend.trans advances_request

end Evaluator

end DecimalSheet
