import DecimalSheet.Proofs.Evaluation.Calls
import DecimalSheet.Proofs.Evaluation.Turns

/-!
# Evaluations in lockstep

Two evaluators over grids of the same size go through their evaluations in lockstep if their cells
hold the same up to a relation of numbers that all formulas respect. They ask for the same cells in
the same order, the same faults arise in the same places, and only the numbers may differ, as far as
the relation allows. The cells that are not asked for may hold anything, so the cells that count can
be limited to those with a property, as long as formulas in such cells ask only for such cells.

How many turns a grid allows depends on all of its cells, but both evaluations come to their ends
after the same number of turns, and more turns change nothing.

## Main definitions

* `Matches R x x'`: the same errors, or values that are related
* `Program.Alike V P R p p'`: the same requests, for cells with the property `P`, as long as the
  numbers that are given are related by `V`
* `Calculation.Alike V P s s'`: the cells with the property `P` hold the same up to `V`
* `Evaluator.Alike V P ev ev'`: what is kept is the same up to `V`
* `Run.Alike V P r r'`: two evaluations have come equally far

## Main results

* `Run.Alike.turn`: turns in lockstep
* `Evaluator.Alike.compute`, `Evaluator.Alike.answer`, `Evaluator.Alike.after`: calls in lockstep
-/

namespace DecimalSheet

variable {V : Decimal → Decimal → Prop} {P : Address → Prop}

/-! ## Results -/

/-- The same errors, or values that are related. -/
inductive Matches {ε α β : Type} (R : α → β → Prop) : Except ε α → Except ε β → Prop
  | ok {x : α} {y : β} (h : R x y) : Matches R (.ok x) (.ok y)
  | error (e : ε) : Matches R (.error e) (.error e)

namespace Matches

variable {ε ε' α β γ δ : Type} {R : α → β → Prop} {x : Except ε α} {y : Except ε β}

theorem mapError {f : ε → ε'} (h : Matches R x y) : Matches R (x.mapError f) (y.mapError f) := by
  cases h with
  | ok h => exact .ok h
  | error e => exact .error (f e)

theorem map {Q : γ → δ → Prop} {f : α → γ} {g : β → δ} (hfg : ∀ x y, R x y → Q (f x) (g y))
    (h : Matches R x y) : Matches Q (x.map f) (y.map g) := by
  cases h with
  | ok h => exact .ok (hfg _ _ h)
  | error e => exact .error e

/-- Results whose values are related only if they are equal. -/
theorem eq_of_forall {R : α → α → Prop} {x y : Except ε α} (hR : ∀ x y, R x y → y = x)
    (h : Matches R x y) : y = x := by
  cases h with
  | ok h => rw [hR _ _ h]
  | error e => rfl

end Matches

/-! ## Programs -/

/-- The same requests, for cells with the property `P`, as long as the numbers that are given are
related, and results that are related or the same faults. -/
inductive Program.Alike {α β : Type} (V : Decimal → Decimal → Prop) (P : Address → Prop)
    (R : α → β → Prop) : Program α → Program β → Prop
  | done {x : α} {y : β} (h : R x y) : Alike V P R (.done x) (.done y)
  | raise (raised : Raised) : Alike V P R (.raise raised) (.raise raised)
  | ask {a : Address} {next : Decimal → Program α} {next' : Decimal → Program β} (ha : P a)
    (h : ∀ v w, V v w → Alike V P R (next v) (next' w)) : Alike V P R (.ask a next) (.ask a next')

namespace Program

variable {α β γ δ : Type} {R : α → β → Prop} {Q : γ → δ → Prop} {p : Program α} {p' : Program β}

theorem Alike.bind {f : α → Program γ} {f' : β → Program δ} (h : p.Alike V P R p')
    (hf : ∀ x y, R x y → (f x).Alike V P Q (f' y)) : (p >>= f).Alike V P Q (p' >>= f') := by
  induction h with
  | done h => exact hf _ _ h
  | raise raised => exact .raise raised
  | ask ha _ ih => exact .ask ha ih

theorem alike_ofExcept {x : Except Raised α} {y : Except Raised β} (h : Matches R x y) :
    (ofExcept x).Alike V P R (ofExcept y) := by
  cases h with
  | ok h => exact .done h
  | error raised => exact .raise raised

end Program

/-! ## Cells -/

/-- Related numbers, formulas with programs that are alike, or the same faults. -/
inductive Content.Alike (V : Decimal → Decimal → Prop) (P : Address → Prop) (s s' : Setting) :
    Content → Content → Prop
  | literal {v w : Decimal} (h : V v w) : Alike V P s s' (.literal v) (.literal w)
  | formula {f f' : Formula} {tree tree' : Expr} {references references' : Option (List Reference)}
    (h : (tree.program s Expr.maxHeight).Alike V P V (tree'.program s' Expr.maxHeight)) :
    Alike V P s s' (.formula f tree references) (.formula f' tree' references')
  | unreadable {formula formula' : Option Formula} {fault : Fault} :
    Alike V P s s' (.unreadable formula fault) (.unreadable formula' fault)

/-- The grids have the same size, and the cells with the property `P` hold the same. -/
structure Calculation.Alike (V : Decimal → Decimal → Prop) (P : Address → Prop)
    (s s' : Calculation) : Prop where
  height_eq : s'.grid.height = s.grid.height
  width_eq : s'.grid.width = s.grid.width
  cell : ∀ a, P a →
    Option.Rel (fun c c' => Content.Alike V P s.setting s'.setting c.content c'.content)
      (s.grid.cell? a) (s'.grid.cell? a)

namespace Calculation

variable {s s' : Calculation}

/-- Formulas see no more of a grid than its size. -/
theorem setting_eq_of_size {g : Grid} (hheight : g.height = s.grid.height)
    (hwidth : g.width = s.grid.width) : setting ⟨g, s.functions, s.scale⟩ = s.setting := by
  simp only [setting, hheight, hwidth]

theorem Alike.contains_iff (h : s.Alike V P s') (a : Address) :
    s'.grid.Contains a ↔ s.grid.Contains a := by
  unfold Grid.Contains
  rw [h.height_eq, h.width_eq]

theorem Alike.rowAddresses_eq (h : s.Alike V P s') :
    s'.grid.rowAddresses = s.grid.rowAddresses := by
  unfold Grid.rowAddresses
  rw [h.height_eq, h.width_eq]

end Calculation

/-! ## Evaluators and runs -/

variable {s s' : Calculation}

/-- The same status up to the number that is kept. -/
inductive Status.Alike (V : Decimal → Decimal → Prop) : Status → Status → Prop
  | inProgress : Alike V .inProgress .inProgress
  | finished {o o' : Outcome} (h : Matches V o o') : Alike V (.finished o) (.finished o')

/-- What is kept is the same, and only cells with the property `P` have been asked for. -/
structure Evaluator.Alike (V : Decimal → Decimal → Prop) (P : Address → Prop)
    (s s' : Calculation) (ev ev' : Evaluator) : Prop where
  calculation_eq : ev.calculation = s
  calculation_eq' : ev'.calculation = s'
  calculation : s.Alike V P s'
  status : ∀ a : Address, Option.Rel (Status.Alike V) ev.status[a]? ev'.status[a]?
  dependencies_eq : ev'.dependencies = ev.dependencies
  failureCount_eq : ev'.failureCount = ev.failureCount
  status_eq_none : ∀ a : Address, ¬P a → ev.status[a]? = none
  confined : ∀ a : Address, ∀ b ∈ ev.dependencies.dependantsOf a, P a ∧ P b

/-- The same cell waits, and the programs that go on with related numbers are alike. -/
structure Frame.Alike (V : Decimal → Decimal → Prop) (P : Address → Prop) (f f' : Frame) :
    Prop where
  cell_eq : f'.cell = f.cell
  cell : P f.cell
  next : ∀ v w, V v w → (f.next v).Alike V P V (f'.next w)

/-- Two evaluations have come equally far. -/
inductive Phase.Alike (V : Decimal → Decimal → Prop) (P : Address → Prop) : Phase → Phase → Prop
  | running {c : Address} {p p' : Program Decimal} {below below' : List Frame} (hc : P c)
    (hp : p.Alike V P V p') (hbelow : List.Forall₂ (Frame.Alike V P) below below') :
    Alike V P (.running c p below) (.running c p' below')
  | returning {o o' : Outcome} {below below' : List Frame} (ho : Matches V o o')
    (hbelow : List.Forall₂ (Frame.Alike V P) below below') :
    Alike V P (.returning o below) (.returning o' below')
  | aborted (reason : Abort) : Alike V P (.aborted reason) (.aborted reason)

/-- Two evaluations have come equally far, with evaluators that are alike. -/
structure Run.Alike (V : Decimal → Decimal → Prop) (P : Address → Prop) (s s' : Calculation)
    (r r' : Run) : Prop where
  evaluator : r.evaluator.Alike V P s s' r'.evaluator
  phase : r.phase.Alike V P r'.phase

namespace Evaluator

variable {ev ev' : Evaluator} {a c : Address} {o o' : Outcome} {below below' : List Frame}
  {p p' : Program Decimal}

theorem Alike.nextFailure_eq (h : ev.Alike V P s s' ev') (fault : Fault) (cell : Address) :
    ev'.nextFailure fault cell = ev.nextFailure fault cell := by
  rw [nextFailure, nextFailure, h.failureCount_eq]

theorem Alike.note (h : ev.Alike V P s s' ev') (event event' : Event) :
    (ev.note event).Alike V P s s' (ev'.note event') :=
  ⟨h.calculation_eq, h.calculation_eq', h.calculation, h.status, h.dependencies_eq,
    h.failureCount_eq, h.status_eq_none, h.confined⟩

theorem Alike.countFailure (h : ev.Alike V P s s' ev') :
    ev.countFailure.Alike V P s s' ev'.countFailure :=
  ⟨h.calculation_eq, h.calculation_eq', h.calculation, h.status, h.dependencies_eq,
    congrArg (· + 1) h.failureCount_eq, h.status_eq_none, h.confined⟩

theorem Alike.depend (h : ev.Alike V P s s' ev') (ha : P a) (hc : P c) :
    (ev.depend a c).Alike V P s s' (ev'.depend a c) where
  calculation_eq := h.calculation_eq
  calculation_eq' := h.calculation_eq'
  calculation := h.calculation
  status := h.status
  dependencies_eq := congrArg (·.record a c) h.dependencies_eq
  failureCount_eq := h.failureCount_eq
  status_eq_none := h.status_eq_none
  confined b d hd := by
    rcases Dependencies.mem_dependantsOf_record.1 hd with hd | ⟨rfl, rfl⟩
    · exact h.confined b d hd
    · exact ⟨ha, hc⟩

/-- A cell with the property gets a new status. -/
theorem Alike.insert (h : ev.Alike V P s s' ev') (hc : P c) {st st' : Status}
    (hst : st.Alike V st') :
    Alike V P s s' { ev with status := ev.status.insert c st }
      { ev' with status := ev'.status.insert c st' } where
  calculation_eq := h.calculation_eq
  calculation_eq' := h.calculation_eq'
  calculation := h.calculation
  status a := by
    rw [Calculation.getElem?_insert, Calculation.getElem?_insert]
    split
    · exact .some hst
    · exact h.status a
  dependencies_eq := h.dependencies_eq
  failureCount_eq := h.failureCount_eq
  status_eq_none a ha := by
    rw [Calculation.getElem?_insert, if_neg fun hac : a = c => ha (hac ▸ hc)]
    exact h.status_eq_none a ha
  confined := h.confined

theorem Alike.settle (h : ev.Alike V P s s' ev') (hc : P c) (ho : Matches V o o')
    (hbelow : List.Forall₂ (Frame.Alike V P) below below') :
    (ev.settle c o below).Alike V P s s' (ev'.settle c o' below') :=
  ⟨(h.insert hc (.finished ho)).note _ _, .returning ho hbelow⟩

theorem Alike.refuse (h : ev.Alike V P s s' ev') (fault : Fault)
    (hbelow : List.Forall₂ (Frame.Alike V P) below below') :
    (ev.refuse c fault below).Alike V P s s' (ev'.refuse c fault below') := by
  refine ⟨h.countFailure, ?_⟩
  rw [Evaluator.refuse, Evaluator.refuse, h.nextFailure_eq]
  exact .returning (.error _) hbelow

theorem Alike.refuseCircular (h : ev.Alike V P s s' ev')
    (hbelow : List.Forall₂ (Frame.Alike V P) below below') :
    (ev.refuseCircular c below).Alike V P s s' (ev'.refuseCircular c below') := by
  rw [Evaluator.refuseCircular, Evaluator.refuseCircular, h.dependencies_eq]
  exact (h.note _ _).refuse _ hbelow

theorem Alike.grid_eq (h : ev.Alike V P s s' ev') : ev.grid = s.grid :=
  congrArg Calculation.grid h.calculation_eq

theorem Alike.grid_eq' (h : ev.Alike V P s s' ev') : ev'.grid = s'.grid :=
  congrArg Calculation.grid h.calculation_eq'

theorem Alike.cell (h : ev.Alike V P s s' ev') (ha : P a) :
    Option.Rel (fun c c' => Content.Alike V P ev.setting ev'.setting c.content c'.content)
      (ev.grid.cell? a) (ev'.grid.cell? a) := by
  rw [setting_eq, setting_eq, h.calculation_eq, h.calculation_eq', h.grid_eq, h.grid_eq']
  exact h.calculation.cell a ha

/-- Requests for a cell that counts have ends that are alike. -/
theorem Alike.request (h : ev.Alike V P s s' ev') (ha : P a)
    (hbelow : List.Forall₂ (Frame.Alike V P) below below') :
    (ev.request a below).Alike V P s s' (ev'.request a below') := by
  have hstatus := h.status a
  have hcell := h.cell ha
  unfold Evaluator.request
  generalize ev.status[a]? = st at hstatus ⊢
  generalize ev'.status[a]? = st' at hstatus ⊢
  cases hstatus with
  | some hst =>
    cases hst with
    | inProgress => exact h.refuseCircular hbelow
    | finished ho => exact ⟨h, .returning ho hbelow⟩
  | none =>
    generalize ev.grid.cell? a = cell? at hcell ⊢
    generalize ev'.grid.cell? a = cell?' at hcell ⊢
    cases hcell with
    | none => exact h.refuse _ hbelow
    | @some cell cell' hcontent =>
      -- The cells hold the same, and so they start alike.
      obtain ⟨_, _, content⟩ := cell
      obtain ⟨_, _, content'⟩ := cell'
      cases hcontent with
      | literal hv => exact h.settle ha (.ok hv) hbelow
      | formula hp => exact ⟨(h.insert ha .inProgress).note _ _, .running ha hp hbelow⟩
      | unreadable => exact h.settle ha (.error _) hbelow

theorem Alike.proceed (h : ev.Alike V P s s' ev') (hc : P c) (hp : p.Alike V P V p')
    (hbelow : List.Forall₂ (Frame.Alike V P) below below') :
    (ev.proceed c p below).Alike V P s s' (ev'.proceed c p' below') := by
  cases hp with
  | done hv => exact h.settle hc (.ok hv) hbelow
  | raise raised =>
    cases raised with
    | fault fault =>
      rw [Evaluator.proceed, Evaluator.proceed, settleFault, settleFault, h.nextFailure_eq]
      exact h.countFailure.settle hc (.error _) hbelow
    | abort reason => exact ⟨h, .aborted reason⟩
  | ask ha hnext => exact (h.depend ha hc).request ha (.cons ⟨rfl, hc, hnext⟩ hbelow)

end Evaluator

namespace Run

variable {r r' : Run}

/-- One turn of each evaluation leaves them equally far. -/
theorem Alike.turn (h : r.Alike V P s s' r') : r.turn.Alike V P s s' r'.turn := by
  obtain ⟨ev, phase⟩ := r
  obtain ⟨ev', phase'⟩ := r'
  obtain ⟨hev, hphase⟩ := h
  cases hphase with
  | running hc hp hbelow => exact hev.proceed hc hp hbelow
  | aborted reason => exact ⟨hev, .aborted reason⟩
  | returning ho hbelow =>
    cases hbelow with
    | nil => cases ho with
      | ok hv => exact ⟨hev, .returning (.ok hv) .nil⟩
      | error f => exact ⟨hev, .returning (.error f) .nil⟩
    | @cons frame frame' below below' hframe hbelow =>
      have hcell := hframe.cell_eq
      cases ho with
      | ok hv =>
        simp only [Run.turn, hcell]
        exact hev.proceed hframe.cell (hframe.next _ _ hv) hbelow
      | error f =>
        simp only [Run.turn, hcell]
        exact hev.settle hframe.cell (.error f) hbelow

theorem Alike.iterate (h : r.Alike V P s s' r') (k : Nat) :
    (Run.turn^[k] r).Alike V P s s' (Run.turn^[k] r') := by
  induction k generalizing r r' with
  | zero => exact h
  | succ k ih => exact ih h.turn

theorem Alike.isOver_iff (h : r.Alike V P s s' r') : r.IsOver ↔ r'.IsOver := by
  obtain ⟨ev, phase⟩ := r
  obtain ⟨ev', phase'⟩ := r'
  obtain ⟨-, hphase⟩ := h
  cases hphase with
  | running | aborted => exact Iff.rfl
  | returning ho hbelow => cases hbelow <;> exact Iff.rfl

end Run

/-- Answers of evaluators that are alike: the evaluators stay so, and the results go together. -/
structure AnswersAlike {ε α β : Type} (V : Decimal → Decimal → Prop) (P : Address → Prop)
    (s s' : Calculation) (R : α → β → Prop) (x : Evaluator × Except ε α)
    (y : Evaluator × Except ε β) : Prop where
  evaluator : x.1.Alike V P s s' y.1
  result : Matches R x.2 y.2

namespace AnswersAlike

variable {ε ε' α β γ δ : Type} {R : α → β → Prop} {x : Evaluator × Except ε α}
  {y : Evaluator × Except ε β}

theorem mapError {f : ε → ε'} (h : AnswersAlike V P s s' R x y) :
    AnswersAlike V P s s' R (x.1, x.2.mapError f) (y.1, y.2.mapError f) :=
  ⟨h.evaluator, h.result.mapError⟩

theorem map {Q : γ → δ → Prop} {f : α → γ} {g : β → δ} (hfg : ∀ x y, R x y → Q (f x) (g y))
    (h : AnswersAlike V P s s' R x y) : AnswersAlike V P s s' Q (x.1, x.2.map f) (y.1, y.2.map g) :=
  ⟨h.evaluator, h.result.map hfg⟩

end AnswersAlike

theorem Run.Alike.complete_zero {r r' : Run} (h : r.Alike V P s s' r') (hover : r.IsOver) :
    AnswersAlike V P s s' (Matches V) (r.complete 0) (r'.complete 0) := by
  obtain ⟨ev, phase⟩ := r
  obtain ⟨ev', phase'⟩ := r'
  obtain ⟨hev, hphase⟩ := h
  cases hphase with
  | running => exact hover.elim
  | returning ho hbelow =>
    cases hbelow with
    | nil => exact ⟨hev, .ok ho⟩
    | cons => exact hover.elim
  | aborted reason => exact ⟨hev, .error reason⟩

namespace Evaluator

variable {ev ev' : Evaluator} {a : Address}

/-- A cell is evaluated in lockstep. The turns that the two grids allow may differ in number, but
both evaluations take equally many. -/
theorem Alike.compute (h : ev.Alike V P s s' ev') (ha : P a) :
    AnswersAlike V P s s' (Matches V) (ev.compute s.grid.turnBound a)
      (ev'.compute s'.grid.turnBound a) := by
  obtain ⟨turns, hle, hover, hcompute⟩ := exists_turns ev a
  obtain ⟨turns', hle', hover', hcompute'⟩ := exists_turns ev' a
  have hruns := fun k => (h.request ha .nil).iterate k
  have hturns : turns = turns' := eq_of_forall_ge_iff fun k =>
    (hover k).symm.trans ((hruns k).isOver_iff.trans (hover' k))
  subst hturns
  rw [h.calculation_eq] at hle
  rw [h.calculation_eq'] at hle'
  have hbound : turns ≤ s.grid.turnBound := hle.trans Calculation.unstartedTurns_le_turnBound
  have hbound' : turns ≤ s'.grid.turnBound := hle'.trans Calculation.unstartedTurns_le_turnBound
  rw [hcompute _ hbound, hcompute' _ hbound']
  exact (hruns turns).complete_zero ((hover turns).2 (Nat.le_refl turns))

theorem Alike.evaluate (h : ev.Alike V P s s' ev') (ha : P a) :
    AnswersAlike V P s s' (Matches V) (ev.evaluate a) (ev'.evaluate a) := by
  have hcontains : ev'.grid.Contains a ↔ ev.grid.Contains a := by
    rw [h.grid_eq, h.grid_eq', h.calculation.contains_iff]
  have hcompute := h.compute ha
  rw [← h.grid_eq, ← h.grid_eq'] at hcompute
  by_cases ha : ev.grid.Contains a
  · rw [evaluate_of_contains ha, evaluate_of_contains (hcontains.2 ha)]
    exact hcompute.mapError
  · rw [evaluate_of_not_contains ha, evaluate_of_not_contains (mt hcontains.1 ha)]
    exact ⟨h, .error _⟩

/-- Computations in lockstep for the members of a list are in lockstep together. -/
theorem Alike.inTurn {α β γ : Type} {R : β → γ → Prop} {as : List α}
    {f : Evaluator → α → Evaluator × Except Abort β}
    {f' : Evaluator → α → Evaluator × Except Abort γ}
    (hf : ∀ ev ev' a, a ∈ as → ev.Alike V P s s' ev' → AnswersAlike V P s s' R (f ev a) (f' ev' a))
    (h : ev.Alike V P s s' ev') :
    AnswersAlike V P s s' (List.Forall₂ R) (inTurn f ev as) (inTurn f' ev' as) := by
  induction as generalizing ev ev' with
  | nil => exact ⟨h, .ok .nil⟩
  | cons a as ih =>
    have hhead := hf ev ev' a List.mem_cons_self h
    unfold Evaluator.inTurn
    generalize f ev a = x at hhead ⊢
    generalize f' ev' a = x' at hhead ⊢
    obtain ⟨ev₁, result⟩ := x
    obtain ⟨ev₁', result'⟩ := x'
    obtain ⟨hev, hresult⟩ := hhead
    cases hresult with
    | error reason => exact ⟨hev, .error reason⟩
    | ok hb =>
      have htail := ih (fun ev ev' a' ha' => hf ev ev' a' (List.mem_cons_of_mem a ha')) hev
      simp only
      generalize Evaluator.inTurn f ev₁ as = y at htail ⊢
      generalize Evaluator.inTurn f' ev₁' as = y' at htail ⊢
      obtain ⟨ev₂, results⟩ := y
      obtain ⟨ev₂', results'⟩ := y'
      obtain ⟨hev', hresults⟩ := htail
      cases hresults with
      | error reason => exact ⟨hev', .error reason⟩
      | ok hbs => exact ⟨hev', .ok (.cons hb hbs)⟩

/-- All cells are evaluated in lockstep, if all of them count. -/
theorem Alike.evaluateAll (hall : ∀ a, P a) (h : ev.Alike V P s s' ev') :
    AnswersAlike V P s s' (List.Forall₂ (List.Forall₂ (Matches V))) ev.evaluateAll
      ev'.evaluateAll := by
  have hrow : ∀ ev ev' row, row ∈ s.grid.rowAddresses → ev.Alike V P s s' ev' →
      AnswersAlike V P s s' (List.Forall₂ (Matches V))
        (Evaluator.inTurn (Evaluator.compute · s.grid.turnBound ·) ev row)
        (Evaluator.inTurn (Evaluator.compute · s'.grid.turnBound ·) ev' row) :=
    fun ev ev' row _ h => h.inTurn fun ev ev' a _ h => h.compute (hall a)
  have hcells := h.inTurn hrow
  unfold Evaluator.evaluateAll
  rw [h.grid_eq, h.grid_eq', h.calculation.rowAddresses_eq]
  generalize Evaluator.inTurn _ ev _ = x at hcells ⊢
  generalize Evaluator.inTurn _ ev' _ = x' at hcells ⊢
  obtain ⟨ev₁, result⟩ := x
  obtain ⟨ev₁', result'⟩ := x'
  obtain ⟨hev, hresult⟩ := hcells
  cases hresult with
  | ok hvalues => exact ⟨hev.note _ _, .ok hvalues⟩
  | error reason => exact ⟨hev, .error reason⟩

/-- Calls are answered in lockstep, if all cells count. -/
theorem Alike.answer (hall : ∀ a, P a) (h : ev.Alike V P s s' ev') (call : Call) :
    AnswersAlike V P s s' (List.Forall₂ (List.Forall₂ (Matches V))) (ev.answer call)
      (ev'.answer call) := by
  cases call with
  | one a => exact (h.evaluate (hall a)).map fun _ _ ho => .cons (.cons ho .nil) .nil
  | all => exact (h.evaluateAll hall).mapError

theorem Alike.after (hall : ∀ a, P a) (h : ev.Alike V P s s' ev') (calls : List Call) :
    (ev.after calls).Alike V P s s' (ev'.after calls) := by
  induction calls generalizing ev ev' with
  | nil => exact h
  | cons call calls ih => exact ih (h.answer hall call).evaluator

theorem alike_start (h : s.Alike V P s') :
    (start s.grid s.functions s.scale).Alike V P s s' (start s'.grid s'.functions s'.scale) where
  calculation_eq := rfl
  calculation_eq' := rfl
  calculation := h
  status a := by simp [start]
  dependencies_eq := rfl
  failureCount_eq := rfl
  status_eq_none a _ := by simp [start]
  confined a b hb := by simp [start, Dependencies.empty, Dependencies.dependantsOf] at hb

end Evaluator

end DecimalSheet
