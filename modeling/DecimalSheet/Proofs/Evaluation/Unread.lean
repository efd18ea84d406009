import DecimalSheet.Proofs.Evaluation.Following

/-!
# Cells that are not read

The content of a cell is read when the cell begins, and never again. While the cell is in progress,
it may hold any other formula, and the cells that its formula asks for come to the same outcomes:
the same numbers, and the same failures, with the same cycles if there are any.

## Main definitions

* `Evaluator.AgreesBut c ev ev'`: the evaluators agree, apart from what the cell `c`, which is in
  progress, holds and from what they have told
* `Run.AgreesBut c r r'`: two evaluations have come equally far for such evaluators

## Main results

* `Run.AgreesBut.turn`: turns of both evaluations
* `Evaluator.AgreesBut.follow`: a program of the cell comes to the same end
-/

namespace DecimalSheet

/-- The evaluators agree, apart from what the cell `c` holds and from their histories, and the cell
is in progress. -/
structure Evaluator.AgreesBut (c : Address) (ev ev' : Evaluator) : Prop where
  height_eq : ev'.grid.height = ev.grid.height
  width_eq : ev'.grid.width = ev.grid.width
  cell?_eq : ∀ a, a ≠ c → ev'.grid.cell? a = ev.grid.cell? a
  functions_eq : ev'.functions = ev.functions
  scale_eq : ev'.scale = ev.scale
  status_eq : ev'.status = ev.status
  dependencies_eq : ev'.dependencies = ev.dependencies
  failureCount_eq : ev'.failureCount = ev.failureCount
  inProgress : ev.status[c]? = some .inProgress

/-- Two evaluations have come equally far, for evaluators that agree apart from the cell `c`, which
is none of the cells under way. -/
structure Run.AgreesBut (c : Address) (r r' : Run) : Prop where
  evaluator : r.evaluator.AgreesBut c r'.evaluator
  phase_eq : r'.phase = r.phase
  not_mem : c ∉ r.phase.stack

namespace Evaluator

variable {ev ev' : Evaluator} {a b c : Address} {o : Outcome} {below : List Frame}

theorem AgreesBut.setting_eq (h : ev.AgreesBut c ev') : ev'.setting = ev.setting := by
  rw [setting, setting, h.height_eq, h.width_eq, h.functions_eq, h.scale_eq]

theorem AgreesBut.nextFailure_eq (h : ev.AgreesBut c ev') (fault : Fault) (a : Address) :
    ev'.nextFailure fault a = ev.nextFailure fault a := by
  rw [nextFailure, nextFailure, h.failureCount_eq]

theorem AgreesBut.note (h : ev.AgreesBut c ev') (event event' : Event) :
    (ev.note event).AgreesBut c (ev'.note event') := by
  exact { h with }

theorem AgreesBut.countFailure (h : ev.AgreesBut c ev') :
    ev.countFailure.AgreesBut c ev'.countFailure :=
  { h with failureCount_eq := congrArg (· + 1) h.failureCount_eq }

theorem AgreesBut.depend (h : ev.AgreesBut c ev') (a b : Address) :
    (ev.depend a b).AgreesBut c (ev'.depend a b) :=
  { h with dependencies_eq := congrArg (·.record a b) h.dependencies_eq }

/-- Another cell gets a status. -/
theorem AgreesBut.insert (h : ev.AgreesBut c ev') (ha : a ≠ c) (st : Status) :
    AgreesBut c { ev with status := ev.status.insert a st }
      { ev' with status := ev'.status.insert a st } :=
  { h with
    status_eq := congrArg (·.insert a st) h.status_eq
    inProgress := by
      rw [Calculation.getElem?_insert, if_neg ha.symm]
      exact h.inProgress }

theorem AgreesBut.settle (h : ev.AgreesBut c ev') (ha : a ≠ c) (o : Outcome)
    (hbelow : c ∉ below.map (·.cell)) :
    (ev.settle a o below).AgreesBut c (ev'.settle a o below) :=
  ⟨(h.insert ha _).note _ _, rfl, hbelow⟩

theorem AgreesBut.refuse (h : ev.AgreesBut c ev') (a : Address) (fault : Fault)
    (hbelow : c ∉ below.map (·.cell)) :
    (ev.refuse a fault below).AgreesBut c (ev'.refuse a fault below) := by
  refine ⟨h.countFailure, ?_, hbelow⟩
  rw [Evaluator.refuse, Evaluator.refuse, h.nextFailure_eq]

/-- Only the content of the cell that is in progress may differ, and it is not read. -/
theorem AgreesBut.request (h : ev.AgreesBut c ev') (a : Address)
    (hbelow : c ∉ below.map (·.cell)) :
    (ev.request a below).AgreesBut c (ev'.request a below) := by
  unfold Evaluator.request
  rw [h.status_eq]
  split
  · exact ⟨h, rfl, hbelow⟩
  · -- both find the same cycle
    rw [refuseCircular, refuseCircular, h.dependencies_eq]
    exact (h.note _ _).refuse a _ hbelow
  · rename_i hnew
    have ha : a ≠ c := by
      rintro rfl
      rw [h.inProgress] at hnew
      cases hnew
    rw [h.cell?_eq a ha]
    split
    · unfold startCell
      split
      · exact h.settle ha _ hbelow
      · exact h.settle ha _ hbelow
      · refine ⟨(h.insert ha _).note _ _, ?_, ?_⟩
        · rw [startFormula, startFormula, h.setting_eq]
        · exact List.not_mem_cons_of_ne_of_not_mem ha.symm hbelow
    · exact h.refuse a _ hbelow

theorem AgreesBut.proceed (h : ev.AgreesBut c ev') (ha : a ≠ c) (p : Program Decimal)
    (hbelow : c ∉ below.map (·.cell)) :
    (ev.proceed a p below).AgreesBut c (ev'.proceed a p below) := by
  cases p with
  | done value => exact h.settle ha _ hbelow
  | raise raised =>
    cases raised with
    | fault fault =>
      rw [Evaluator.proceed, Evaluator.proceed, settleFault, settleFault, h.nextFailure_eq]
      exact h.countFailure.settle ha _ hbelow
    | abort reason => exact ⟨h, rfl, List.not_mem_nil⟩
  | ask b next => exact (h.depend b a).request b (List.not_mem_cons_of_ne_of_not_mem ha.symm hbelow)

end Evaluator

namespace Run

variable {c : Address} {r r' : Run}

/-- One turn of each evaluation leaves them equally far. -/
theorem AgreesBut.turn (h : r.AgreesBut c r') : r.turn.AgreesBut c r'.turn := by
  obtain ⟨ev, phase⟩ := r
  obtain ⟨ev', phase'⟩ := r'
  obtain ⟨hev, hphase, hmem⟩ := h
  obtain rfl : phase' = phase := hphase
  cases phase' with
  | running a p below =>
    obtain ⟨ha, hbelow⟩ := List.ne_and_not_mem_of_not_mem_cons hmem
    exact hev.proceed (Ne.symm ha) p hbelow
  | returning o below =>
    cases below with
    | nil => cases o <;> exact ⟨hev, rfl, hmem⟩
    | cons frame below =>
      obtain ⟨ha, hbelow⟩ := List.ne_and_not_mem_of_not_mem_cons hmem
      cases o with
      | ok v => exact hev.proceed (Ne.symm ha) _ hbelow
      | error f => exact hev.settle (Ne.symm ha) _ hbelow
  | aborted reason => exact ⟨hev, rfl, hmem⟩

theorem AgreesBut.iterate (h : r.AgreesBut c r') (k : Nat) :
    (Run.turn^[k] r).AgreesBut c (Run.turn^[k] r') := by
  induction k generalizing r r' with
  | zero => exact h
  | succ k ih => exact ih h.turn

/-- Where one evaluation has come to its end, the other one has come to the same end. -/
theorem AgreesBut.eq_ended {x : Evaluator × Except Abort Outcome}
    (h : (ended [] x).AgreesBut c r') :
    r' = ended [] (r'.evaluator, x.2) ∧ x.1.AgreesBut c r'.evaluator := by
  obtain ⟨ev', phase'⟩ := r'
  obtain ⟨ev, reason | o⟩ := x
  · obtain rfl : phase' = .aborted reason := h.phase_eq
    exact ⟨rfl, h.evaluator⟩
  · obtain rfl : phase' = .returning o [] := h.phase_eq
    exact ⟨rfl, h.evaluator⟩

end Run

namespace Evaluator

variable {ev ev' : Evaluator} {c : Address} {α : Type}

/-- Two computations come to the same, for evaluators that agree apart from the cell `c`. -/
structure EndsAgree (c : Address) (x x' : Evaluator × α) : Prop where
  evaluator : x.1.AgreesBut c x'.1
  result_eq : x'.2 = x.2

/-- An evaluation comes to the same, although the turns that the two grids allow may differ in
number. -/
theorem AgreesBut.compute (h : ev.AgreesBut c ev') (a : Address) :
    EndsAgree c (ev.compute ev.grid.turnBound a) (ev'.compute ev'.grid.turnBound a) := by
  obtain ⟨k, hk⟩ := exists_iterate_request ev a []
  have hrequest : (ev.request a []).AgreesBut c (ev'.request a []) :=
    h.request a List.not_mem_nil
  have hruns := hrequest.iterate k
  rw [hk] at hruns
  obtain ⟨hends, hev⟩ := hruns.eq_ended
  rw [compute_of_iterate hends]
  exact ⟨hev, rfl⟩

/-- A program of the cell comes to the same end, with evaluators that still agree. -/
theorem AgreesBut.follow (h : ev.AgreesBut c ev') (p : Program α) :
    EndsAgree c (ev.follow c p) (ev'.follow c p) := by
  induction p generalizing ev ev' with
  | done value => exact ⟨h, rfl⟩
  | raise raised =>
    cases raised with
    | fault fault =>
      refine ⟨h.countFailure, ?_⟩
      rw [Evaluator.follow, Evaluator.follow, h.nextFailure_eq]
    | abort reason => exact ⟨h, rfl⟩
  | ask a next ih =>
    have hcompute := (h.depend a c).compute a
    have hgrid : (ev.depend a c).grid = ev.grid := rfl
    have hgrid' : (ev'.depend a c).grid = ev'.grid := rfl
    rw [hgrid, hgrid'] at hcompute
    rw [Evaluator.follow, Evaluator.follow]
    generalize (ev.depend a c).compute ev.grid.turnBound a = x at hcompute ⊢
    generalize (ev'.depend a c).compute ev'.grid.turnBound a = x' at hcompute ⊢
    obtain ⟨ev₁, result⟩ := x
    obtain ⟨ev₁', result'⟩ := x'
    obtain ⟨hev, hresult⟩ := hcompute
    obtain rfl : result' = result := hresult
    rcases result' with reason | failure | v
    · exact ⟨hev, rfl⟩
    · exact ⟨hev, rfl⟩
    · exact ih v hev

end Evaluator

end DecimalSheet
