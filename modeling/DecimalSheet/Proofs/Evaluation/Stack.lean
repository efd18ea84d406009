import DecimalSheet.Proofs.Evaluation.Progress

/-!
# Stacks of formulas

While a cell is evaluated, the formulas that wait form a stack. Each of them waits for the one above
it: the cell above is the first one that it asks for and that has no number yet. The cells in
progress are those on the stack, apart from cells that evaluations left behind when they were given
up. This is an invariant of every turn, for all formulas, however high their trees are and whatever
the functions do that they use.

The invariant also counts the turns that are still to come, so an evaluation always comes to its
end.

## Main definitions

* `Program.rest known p`: what is left of a program once the requests with known numbers are
  answered
* `Evaluator.nextRequest? ev c`: the first cell without a number for which a formula asks
* `Evaluator.WaitsFor ev a c`: the cell `c` waits for the cell `a`
* `Evaluator.IsBusyWith ev left stack`: which cells are in progress
* `Evaluator.Gives ev a o`: the outcome `o` is what a request for the cell `a` gives
* `Run.IsOrderly s left target n`: the invariant of an evaluation of the cell `target`

## Main results

* `Run.IsOrderly.turn`: one turn keeps the invariant and uses up one of the turns to come
* `Run.IsOrderly.isChain_stack`: each cell on the stack waits for the one above it
-/

namespace DecimalSheet

/-! ## Programs and known numbers -/

namespace Program

variable {α : Type} {known known' : Address → Option Decimal}

/-- What is left of a program once the requests for cells with known numbers are answered. -/
def rest (known : Address → Option Decimal) : Program α → Program α
  | done value => done value
  | raise raised => raise raised
  | ask a next =>
    match known a with
    | some v => (next v).rest known
    | none => ask a next

/-- The cell for whose value a program asks first. -/
def request? : Program α → Option Address
  | ask a _ => some a
  | _ => none

theorem rest_ask_of_eq_some {a : Address} {next : Decimal → Program α} {v : Decimal}
    (h : known a = some v) : (ask a next).rest known = (next v).rest known := by
  rw [rest, h]

theorem rest_ask_of_eq_none {a : Address} {next : Decimal → Program α} (h : known a = none) :
    (ask a next).rest known = ask a next := by
  rw [rest, h]

/-- Some requests may be answered at once, and others later. -/
theorem rest_rest (h : ∀ a v, known a = some v → known' a = some v) (p : Program α) :
    (p.rest known).rest known' = p.rest known' := by
  induction p with
  | done | raise => rfl
  | ask a next ih =>
    cases hv : known a with
    | none => rw [rest_ask_of_eq_none hv]
    | some v => rw [rest_ask_of_eq_some hv, ih, rest_ask_of_eq_some (h a v hv)]

end Program

namespace Calculation

variable {s : Calculation} {known known' : Address → Option Decimal} {d d' : Dependencies}
  {a c target : Address} {k m : Nat} {p : Program Decimal} {next : Decimal → Program Decimal}
  {below : List Frame}

/-- The formulas of the grid have trees that formulas can have. -/
def IsProper (s : Calculation) : Prop := ∀ a tree, s.tree? a = some tree → tree.IsProper

theorem isProper_of_ofRaw {table : RawValue} {marker : Option String}
    (hgrid : Grid.ofRaw table marker = .ok s.grid) : s.IsProper := by
  intro a tree htree
  obtain ⟨cell, f, references, hcell, hcontent⟩ := tree?_eq_some_iff.1 htree
  exact Formula.isProper_of_tree (Grid.tree_of_ofRaw hgrid hcell hcontent)

/-! ## Formulas under way -/

/-- What is left of the formula of a cell, up to requests for cells with known numbers. It makes at
most `k` requests, all of them for mentioned cells inside of the grid. -/
structure Continues (s : Calculation) (known : Address → Option Decimal) (c : Address) (k : Nat)
    (p : Program Decimal) : Prop where
  rest_eq : ∃ tree, s.tree? c = some tree ∧
    (tree.program s.setting Expr.maxHeight).rest known = p.rest known
  behaves : p.Behaves (fun b => s.RefersTo c b ∧ s.grid.Contains b) s.NeverAborts k

theorem continues_program (hproper : s.IsProper) {tree : Expr} (htree : s.tree? a = some tree) :
    s.Continues known a (tree.requestBound s.grid.size)
      (tree.program s.setting Expr.maxHeight) where
  rest_eq := ⟨tree, htree, rfl⟩
  behaves := (Expr.behaves_program tree _ (hproper a tree htree)).imp
    fun _ hb => ⟨⟨tree, htree, hb.1⟩, hb.2⟩

theorem Continues.mono (h : s.Continues known c k p)
    (hknown : ∀ a v, known a = some v → known' a = some v) : s.Continues known' c k p := by
  obtain ⟨tree, htree, hrest⟩ := h.rest_eq
  refine ⟨⟨tree, htree, ?_⟩, h.behaves⟩
  rw [← Program.rest_rest hknown, hrest, Program.rest_rest hknown]

theorem Continues.of_ask {v : Decimal} (h : s.Continues known c k (.ask a next))
    (hv : known a = some v) : s.Continues known c (k - 1) (next v) := by
  obtain ⟨tree, htree, hrest⟩ := h.rest_eq
  exact ⟨⟨tree, htree, by rw [hrest, Program.rest_ask_of_eq_some hv]⟩, h.behaves.2.2 v⟩

theorem Continues.refersTo (h : s.Continues known c k (.ask a next)) : s.RefersTo c a :=
  h.behaves.2.1.1

theorem Continues.contains (h : s.Continues known c k (.ask a next)) : s.grid.Contains a :=
  h.behaves.2.1.2

/-- The cell of a formula under way lies inside of the grid. -/
theorem Continues.contains_cell (h : s.Continues known c k p) : s.grid.Contains c := by
  obtain ⟨tree, htree, -⟩ := h.rest_eq
  exact contains_of_tree? htree

/-- The formulas on a stack wait, the topmost one for the cell `a` and every other one for the one
above it, and the last one is that of the cell `target`. Together they make at most `m` requests,
those under way included, which the dependencies show. -/
inductive Awaits (s : Calculation) (known : Address → Option Decimal) (d : Dependencies)
    (target : Address) : Nat → Address → List Frame → Prop
  | nil : Awaits s known d target 0 target []
  | cons {k m : Nat} {a : Address} {frame : Frame} {below : List Frame}
      (hcontinues : s.Continues known frame.cell k (.ask a frame.next))
      (hasked : frame.cell ∈ d.dependantsOf a)
      (hbelow : Awaits s known d target m frame.cell below) :
      Awaits s known d target (k + m) a (frame :: below)

theorem Awaits.mono (h : s.Awaits known d target m a below)
    (hknown : ∀ a v, known a = some v → known' a = some v)
    (hd : ∀ a, ∀ b ∈ d.dependantsOf a, b ∈ d'.dependantsOf a) :
    s.Awaits known' d' target m a below := by
  induction h with
  | nil => exact .nil
  | cons hcontinues hasked _ ih => exact .cons (hcontinues.mono hknown) (hd _ _ hasked) ih

theorem Awaits.contains (h : s.Awaits known d target m a below) (hc : c ∈ below.map (·.cell)) :
    s.grid.Contains c := by
  induction h with
  | nil => cases hc
  | cons hcontinues _ _ ih =>
    rcases List.mem_cons.1 hc with rfl | hc
    · exact hcontinues.contains_cell
    · exact ih hc

/-- The cell `target` is the last one on the stack. -/
theorem Awaits.target_mem (h : s.Awaits known d target m a below) :
    target ∈ a :: below.map (·.cell) := by
  induction h with
  | nil => exact List.mem_cons_self
  | cons _ _ _ ih => exact List.mem_cons_of_mem _ ih

end Calculation

namespace Evaluator

variable {ev ev' : Evaluator} {left : Address → Prop} {stack : List Address} {a b c : Address}
  {o : Outcome} {v : Decimal}

/-! ## Cells in progress -/

/-- The first cell without a number for which the formula of a cell asks. -/
def nextRequest? (ev : Evaluator) (c : Address) : Option Address :=
  (ev.calculation.tree? c).bind fun tree =>
    ((tree.program ev.setting Expr.maxHeight).rest ev.number?).request?

/-- The cell `c` waits for the cell `a`, to which it refers: that is the first cell without a number
for which its formula asks, and the dependencies tell that it has asked. -/
structure WaitsFor (ev : Evaluator) (a c : Address) : Prop where
  refersTo : ev.calculation.RefersTo c a
  nextRequest?_eq : ev.nextRequest? c = some a
  asked : c ∈ ev.dependencies.dependantsOf a

/-- A formula that has come to a request for a cell without a number waits for that cell. -/
theorem waitsFor_of_continues {k : Nat} {next : Decimal → Program Decimal}
    (h : ev.calculation.Continues ev.number? c k (.ask a next)) (ha : ev.number? a = none)
    (hasked : c ∈ ev.dependencies.dependantsOf a) : ev.WaitsFor a c where
  refersTo := h.refersTo
  nextRequest?_eq := by
    obtain ⟨tree, htree, hrest⟩ := h.rest_eq
    rw [nextRequest?, htree, Option.bind_some, setting_eq, hrest, Program.rest_ask_of_eq_none ha]
    rfl
  asked := hasked

/-- Each cell on a stack waits for the one above it, if none of them has a number. -/
theorem isChain_of_awaits {target : Address} {m : Nat} {below : List Frame}
    (h : ev.calculation.Awaits ev.number? ev.dependencies target m a below)
    (hnone : ∀ b ∈ a :: below.map (·.cell), ev.number? b = none) :
    (a :: below.map (·.cell)).IsChain ev.WaitsFor := by
  induction h with
  | nil => exact .singleton _
  | cons hcontinues hasked _ ih =>
    obtain ⟨ha, hbelow⟩ := List.forall_mem_cons.1 hnone
    exact .cons_cons (waitsFor_of_continues hcontinues ha hasked) (ih hbelow)

/-- The cells in progress are those on the stack, which are distinct, and those that were left
behind. -/
structure IsBusyWith (ev : Evaluator) (left : Address → Prop) (stack : List Address) : Prop where
  nodup : stack.Nodup
  not_left : ∀ a ∈ stack, ¬left a
  inProgress_iff : ∀ a, ev.status[a]? = some .inProgress ↔ a ∈ stack ∨ left a

theorem IsBusyWith.inProgress_of_mem (h : ev.IsBusyWith left stack) (ha : a ∈ stack) :
    ev.status[a]? = some .inProgress :=
  (h.inProgress_iff a).2 (.inl ha)

theorem IsBusyWith.number?_eq_none (h : ev.IsBusyWith left stack) (ha : a ∈ stack) :
    ev.number? a = none :=
  Evaluator.number?_eq_none fun v hv => by simp [h.inProgress_of_mem ha] at hv

/-- Only the statuses of cells count. -/
theorem IsBusyWith.congr (h : ev.IsBusyWith left stack) (hstatus : ev'.status = ev.status) :
    ev'.IsBusyWith left stack :=
  ⟨h.nodup, h.not_left, fun a => by rw [hstatus, h.inProgress_iff]⟩

/-- The formula of a cell that had no status begins. -/
theorem IsBusyWith.begin (h : ev.IsBusyWith left stack) (ha : ev.status[a]? = none)
    (hstatus : ev'.status = ev.status.insert a .inProgress) : ev'.IsBusyWith left (a :: stack) := by
  have hnew : ¬(a ∈ stack ∨ left a) := by simp [← h.inProgress_iff, ha]
  rw [not_or] at hnew
  refine ⟨List.nodup_cons.2 ⟨hnew.1, h.nodup⟩, ?_, fun b => ?_⟩
  · exact List.forall_mem_cons.2 ⟨hnew.2, h.not_left⟩
  · rw [hstatus, Calculation.getElem?_insert]
    split
    · rename_i hba
      simp [hba]
    · rename_i hba
      simp [h.inProgress_iff, hba]

/-- A cell gets its outcome, and no other cell changes. -/
theorem IsBusyWith.finish (hnodup : stack.Nodup) (hleft : ∀ b ∈ stack, ¬left b)
    (ha : ¬(a ∈ stack ∨ left a))
    (hothers : ∀ b, b ≠ a → (ev.status[b]? = some .inProgress ↔ b ∈ stack ∨ left b)) :
    (ev.keep a o).IsBusyWith left stack := by
  refine ⟨hnodup, hleft, fun b => ?_⟩
  show (ev.status.insert a (.finished o))[b]? = _ ↔ _
  rw [Calculation.getElem?_insert]
  split
  · rename_i hba
    simpa [hba] using ha
  · rename_i hba
    exact hothers b hba

/-- The topmost cell on the stack gets its outcome. -/
theorem IsBusyWith.finish_top (h : ev.IsBusyWith left (a :: stack)) :
    (ev.keep a o).IsBusyWith left stack := by
  obtain ⟨ha, hnodup⟩ := List.nodup_cons.1 h.nodup
  obtain ⟨hleft, hlefts⟩ := List.forall_mem_cons.1 h.not_left
  refine IsBusyWith.finish hnodup hlefts (not_or.2 ⟨ha, hleft⟩) fun b hba => ?_
  rw [h.inProgress_iff, List.mem_cons, or_iff_right hba]

/-- A cell that had no status gets its outcome at once. -/
theorem IsBusyWith.finish_new (h : ev.IsBusyWith left stack) (ha : ev.status[a]? = none) :
    (ev.keep a o).IsBusyWith left stack :=
  IsBusyWith.finish h.nodup h.not_left (by simp [← h.inProgress_iff, ha]) fun b _ =>
    h.inProgress_iff b

/-- An evaluation that is given up leaves the cells on the stack behind. -/
theorem IsBusyWith.leave (h : ev.IsBusyWith left stack) :
    ev.IsBusyWith (fun a => a ∈ stack ∨ left a) [] :=
  ⟨List.nodup_nil, List.forall_mem_nil _, fun a => by simp [h.inProgress_iff]⟩

/-! ## Answers to requests -/

/-- The outcome is what a request for the cell gives: it is kept for the cell, or the cell is in
progress and the outcome is the refusal of the cell. -/
def Gives (ev : Evaluator) (a : Address) (o : Outcome) : Prop :=
  ev.outcome? a = some o ∨ ev.status[a]? = some .inProgress ∧
    ∃ f cycle, o = .error f ∧ f.fault = .circular a cycle ∧ f.origin = a

theorem Gives.number?_eq_some (h : ev.Gives a (.ok v)) : ev.number? a = some v := by
  rcases h with h | ⟨-, f, cycle, ho, -⟩
  · exact number?_eq_some_iff.2 h
  · cases ho

theorem Gives.number?_eq_none {f : Failure} (h : ev.Gives a (.error f)) : ev.number? a = none := by
  refine Evaluator.number?_eq_none fun v hv => ?_
  rcases h with h | ⟨h, -⟩
  · rw [outcome?_eq_some_iff, hv] at h
    cases h
  · rw [hv] at h
    cases h

theorem outcome?_keep : (ev.keep a o).outcome? a = some o := by
  simp [outcome?_eq_some_iff, keep, note]

end Evaluator

/-! ## Runs -/

/-- The cells whose formulas run or wait, the topmost one first. -/
def Phase.stack : Phase → List Address
  | .running c _ below => c :: below.map (·.cell)
  | .returning _ below => below.map (·.cell)
  | .aborted _ => []

/-- The evaluation has been given up. -/
def Run.IsGivenUp (r : Run) : Prop := ∃ reason, r.phase = .aborted reason

/-- The invariant of an evaluation of the cell `target` that takes at most `n` more turns. -/
def Run.IsOrderly (s : Calculation) (left : Address → Prop) (target : Address) (n : Nat) (r : Run) :
    Prop :=
  r.evaluator.calculation = s ∧
    match r.phase with
    | .running c p below => ∃ k m, s.Continues r.evaluator.number? c k p ∧
        s.Awaits r.evaluator.number? r.evaluator.dependencies target m c below ∧
        r.evaluator.IsBusyWith left (c :: below.map (·.cell)) ∧
        s.pending r.evaluator.status + (k + 1) + m ≤ n
    | .returning o below => ∃ a m, r.evaluator.Gives a o ∧
        s.Awaits r.evaluator.number? r.evaluator.dependencies target m a below ∧
        r.evaluator.IsBusyWith left (below.map (·.cell)) ∧
        s.pending r.evaluator.status + m ≤ n
    | .aborted _ => ¬s.NeverAborts ∧ ∃ stack, target ∈ stack ∧ r.evaluator.IsBusyWith left stack

namespace Evaluator

variable {s : Calculation} {ev : Evaluator} {left : Address → Prop} {a c target : Address}
  {below : List Frame} {k m n : Nat} {o : Outcome}

/-- A cell gets its outcome, which is handed to the formulas that wait. -/
theorem settle_isOrderly (hs : ev.calculation = s)
    (hc : ev.status[c]? = none ∨ ev.status[c]? = some .inProgress)
    (hawaits : s.Awaits ev.number? ev.dependencies target m c below)
    (hbusy : (ev.keep c o).IsBusyWith left (below.map (·.cell)))
    (hn : s.pending ev.status + m ≤ n) : (ev.settle c o below).IsOrderly s left target n := by
  have hadvances := advances_keep (o := o) hc
  refine ⟨hs, c, m, .inl outcome?_keep, ?_, hbusy, ?_⟩
  · exact hawaits.mono (fun _ _ => hadvances.number?_eq) hadvances.dependants
  · exact Nat.le_trans (Nat.add_le_add_right Calculation.pending_insert_le m) hn

/-- A request keeps the invariant, wherever it comes to its end. -/
theorem RequestsTo.isOrderly {r : Run} (h : ev.RequestsTo a below r) (hproper : s.IsProper)
    (hs : ev.calculation = s) (ha : s.grid.Contains a)
    (hawaits : s.Awaits ev.number? ev.dependencies target m a below)
    (hbusy : ev.IsBusyWith left (below.map (·.cell)))
    (hn : s.pending ev.status + m ≤ n) : r.IsOrderly s left target n := by
  subst hs
  cases h with
  | kept hkept => exact ⟨rfl, a, m, .inl (outcome?_eq_some_iff.2 hkept), hawaits, hbusy, hn⟩
  | refused hrefused =>
    exact ⟨rfl, a, m, .inr ⟨hrefused, _, _, rfl, rfl, rfl⟩, hawaits, hbusy.congr rfl, hn⟩
  | literal hnew | unreadable hnew =>
    exact settle_isOrderly rfl (.inl hnew) hawaits (hbusy.finish_new hnew) hn
  | @formula cell f tree references hnew hcell hcontent =>
    have htree : ev.calculation.tree? a = some tree :=
      Calculation.tree?_eq_some_iff.2 ⟨cell, f, references, hcell, hcontent⟩
    have hadvances : ev.Advances (ev.startFormula a f.source tree below).evaluator :=
      advances_startFormula hnew
    -- The turns of the formula are no longer pending.
    have hpending : ev.calculation.pending (ev.status.insert a .inProgress) +
        ev.calculation.turnBound a ≤ ev.calculation.pending ev.status :=
      Calculation.pending_insert_add_le ha hnew
    rw [Calculation.turnBound_of_tree? htree] at hpending
    refine ⟨rfl, _, m, Calculation.continues_program hproper htree, ?_, hbusy.begin hnew rfl, ?_⟩
    · exact hawaits.mono (fun _ _ => hadvances.number?_eq) hadvances.dependants
    · exact Nat.le_trans (Nat.add_le_add_right hpending m) hn
  | outside hnew hcell =>
    obtain ⟨cell, hcell'⟩ := Grid.exists_cell?_of_contains ha
    cases hcell.symm.trans hcell'

/-- Going on with a formula keeps the invariant and uses up one of the turns to come. -/
theorem proceed_isOrderly {p : Program Decimal} (hproper : s.IsProper) (hs : ev.calculation = s)
    (hcontinues : s.Continues ev.number? c k p)
    (hawaits : s.Awaits ev.number? ev.dependencies target m c below)
    (hbusy : ev.IsBusyWith left (c :: below.map (·.cell)))
    (hn : s.pending ev.status + k + m ≤ n) : (ev.proceed c p below).IsOrderly s left target n := by
  have hless : s.pending ev.status + m ≤ n := by omega
  have hc := hbusy.inProgress_of_mem List.mem_cons_self
  cases p with
  | done value => exact settle_isOrderly hs (.inr hc) hawaits hbusy.finish_top hless
  | raise raised =>
    cases raised with
    | fault fault =>
      have hcounted : ev.countFailure.IsBusyWith left (c :: below.map (·.cell)) := hbusy.congr rfl
      show (ev.countFailure.settle c _ below).IsOrderly s left target n
      exact settle_isOrderly hs (.inr hc) hawaits hcounted.finish_top hless
    | abort reason => exact ⟨hs, hcontinues.behaves, _, hawaits.target_mem, hbusy⟩
  | ask a next =>
    -- The formula goes on the stack, and the request under way is still to be paid for.
    have hasked : c ∈ (ev.depend a c).dependencies.dependantsOf a :=
      Dependencies.mem_dependantsOf_record.2 (.inr ⟨rfl, rfl⟩)
    have hbelow : s.Awaits ev.number? (ev.depend a c).dependencies target m c below :=
      hawaits.mono (fun _ _ => id) advances_depend.dependants
    refine (requestsTo_request _ _ _).isOrderly hproper hs hcontinues.contains
      (.cons hcontinues hasked hbelow) (hbusy.congr rfl) ?_
    rwa [← Nat.add_assoc]

end Evaluator

namespace Run

variable {s : Calculation} {left : Address → Prop} {target : Address} {n : Nat} {r : Run}

/-- One turn keeps the invariant and uses up one of the turns to come. -/
theorem IsOrderly.turn (hproper : s.IsProper) (h : r.IsOrderly s left target (n + 1))
    (hover : ¬r.IsOver) : r.turn.IsOrderly s left target n := by
  obtain ⟨ev, phase⟩ := r
  obtain ⟨hs, hphase⟩ := h
  cases phase with
  | running c p below =>
    obtain ⟨k, m, hcontinues, hawaits, hbusy, hn⟩ := hphase
    exact Evaluator.proceed_isOrderly hproper hs hcontinues hawaits hbusy (by omega)
  | returning o below =>
    obtain ⟨a, m, hgives, hawaits, hbusy, hn⟩ := hphase
    cases hawaits with
    | nil => exact absurd trivial hover
    | cons hcontinues hasked hbelow =>
      -- A formula that waits has a request to make, which is used up now.
      have hpos := hcontinues.behaves.1
      cases o with
      | ok v =>
        exact Evaluator.proceed_isOrderly hproper hs (hcontinues.of_ask hgives.number?_eq_some)
          hbelow hbusy (by omega)
      | error f =>
        exact Evaluator.settle_isOrderly hs (.inr (hbusy.inProgress_of_mem List.mem_cons_self))
          hbelow hbusy.finish_top (by omega)
  | aborted reason => exact absurd trivial hover

theorem IsOrderly.isOver (h : r.IsOrderly s left target 0) : r.IsOver := by
  obtain ⟨ev, phase⟩ := r
  obtain ⟨-, hphase⟩ := h
  cases phase with
  | running c p below =>
    obtain ⟨k, m, -, -, -, hn⟩ := hphase
    omega
  | returning o below =>
    obtain ⟨a, m, -, hawaits, -, hn⟩ := hphase
    cases hawaits with
    | nil => trivial
    | cons hcontinues =>
      have hpos := hcontinues.behaves.1
      omega
  | aborted reason => trivial

/-- A turn only advances the evaluator. -/
theorem IsOrderly.advances_turn (h : r.IsOrderly s left target n) :
    r.evaluator.Advances r.turn.evaluator := by
  obtain ⟨ev, phase⟩ := r
  obtain ⟨-, hphase⟩ := h
  cases phase with
  | running c p below =>
    obtain ⟨k, m, -, -, hbusy, -⟩ := hphase
    exact Evaluator.advances_proceed (hbusy.inProgress_of_mem List.mem_cons_self)
  | returning o below =>
    obtain ⟨a, m, -, -, hbusy, -⟩ := hphase
    cases below with
    | nil => cases o <;> exact .refl ev
    | cons frame below =>
      have hcell := hbusy.inProgress_of_mem List.mem_cons_self
      cases o with
      | ok v => exact Evaluator.advances_proceed hcell
      | error f => exact Evaluator.advances_keep (.inr hcell)
  | aborted reason => exact .refl ev

/-- Each cell on the stack waits for the one above it. -/
theorem IsOrderly.isChain_stack (h : r.IsOrderly s left target n) :
    r.phase.stack.IsChain r.evaluator.WaitsFor := by
  obtain ⟨ev, phase⟩ := r
  obtain ⟨hs, hphase⟩ := h
  subst hs
  cases phase with
  | running c p below =>
    obtain ⟨k, m, -, hawaits, hbusy, -⟩ := hphase
    exact Evaluator.isChain_of_awaits hawaits fun b => hbusy.number?_eq_none
  | returning o below =>
    obtain ⟨a, m, -, hawaits, hbusy, -⟩ := hphase
    cases hawaits with
    | nil => exact .nil
    | cons _ _ hbelow =>
      exact Evaluator.isChain_of_awaits hbelow fun b => hbusy.number?_eq_none
  | aborted reason => exact .nil

/-- The cells on the stack lie inside of the grid. -/
theorem IsOrderly.contains_of_mem_stack (h : r.IsOrderly s left target n) {a : Address}
    (ha : a ∈ r.phase.stack) : s.grid.Contains a := by
  obtain ⟨ev, phase⟩ := r
  obtain ⟨hs, hphase⟩ := h
  cases phase with
  | running c p below =>
    obtain ⟨k, m, hcontinues, hawaits, -⟩ := hphase
    rcases List.mem_cons.1 ha with rfl | ha
    · exact hcontinues.contains_cell
    · exact hawaits.contains ha
  | returning o below =>
    obtain ⟨a, m, -, hawaits, -⟩ := hphase
    exact hawaits.contains ha
  | aborted reason => cases ha

/-- The cells in progress are those on the stack, apart from the ones that were left behind, unless
the evaluation has been given up. -/
theorem IsOrderly.isBusyWith_stack (h : r.IsOrderly s left target n) (hkept : ¬r.IsGivenUp) :
    r.evaluator.IsBusyWith left r.phase.stack := by
  obtain ⟨ev, phase⟩ := r
  obtain ⟨hs, hphase⟩ := h
  cases phase with
  | running c p below =>
    obtain ⟨k, m, -, -, hbusy, -⟩ := hphase
    exact hbusy
  | returning o below =>
    obtain ⟨a, m, -, -, hbusy, -⟩ := hphase
    exact hbusy
  | aborted reason => exact absurd ⟨reason, rfl⟩ hkept

end Run

end DecimalSheet
