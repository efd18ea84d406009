import DecimalSheet.Evaluation.Evaluator
import DecimalSheet.Proofs.Evaluation.Derivation
import DecimalSheet.Proofs.Evaluation.Requests
import DecimalSheet.Proofs.Grid.Building
import Mathlib

/-!
# Soundness of evaluators

What an evaluator keeps of a cell is right: a number is kept exactly if it can be derived, and the
error that is kept is that of evaluation by recursion wherever no cycle can be reached. This is an
invariant of every turn. While formulas wait on the stack, each of them mentions the one above, so
a request for a cell on the stack closes a cycle, and no cell on a cycle has a derivable value.

An evaluation that is given up leaves the cells on the stack in progress. They stay so for good, and
a later request for one of them is refused, although it may lie on no cycle. That can falsify the
error of a cell but not its value, since from the values of such cells nothing can be derived.

The invariant also bounds the turns that are still to come, by the requests of the formulas on the
stack and of those that have not begun, so an evaluation comes to its end.

## Main definitions

* `Calculation.Judges s a o`: the outcome `o` is right for the cell `a`
* `Calculation.IsStuck s a`: the cell `a` may be in progress for good
* `Calculation.Remembers s status stack`: the kept outcomes are right, and the cells on the stack
  are those in progress, apart from stuck ones
* `Calculation.pending s status`: a bound on the turns of the formulas that have not begun
* `Run.IsSound s target n`: the invariant of an evaluation of the cell `target`

## Main results

* `Run.IsSound.turn`: one turn keeps the invariant and uses up one of the turns to come
* `Run.IsSound.complete`: an evaluation comes to a right outcome
-/

namespace DecimalSheet

/-- The calculation that an evaluator carries out. -/
def Evaluator.calculation (ev : Evaluator) : Calculation := ⟨ev.grid, ev.functions, ev.scale⟩

/-- The error of a failure that arises in a cell. -/
theorem Failure.error_eq_tag (fault : Fault) (cell : Address) (occurrence : Occurrence) :
    (Failure.mk fault (fault.ownOrigin?.getD cell) occurrence).error =
      (CellError.ofFault fault).tag cell := by
  unfold Failure.error CellError.tag CellError.ofFault
  cases fault.ownOrigin? <;> rfl

namespace Calculation

variable {s : Calculation} {a b c target : Address} {k m n : Nat}

/-- The formulas of the grid have trees that formulas can have, and none that is too high. -/
def IsRegular (s : Calculation) : Prop :=
  ∀ a tree, s.tree? a = some tree → tree.IsProper ∧ tree.IsShallow

/-- A built grid is regular if no tree in it is too high. -/
theorem isRegular_of_ofRaw {table : RawValue} {marker : Option String}
    (hgrid : Grid.ofRaw table marker = .ok s.grid)
    (hshallow : ∀ a tree, s.tree? a = some tree → tree.IsShallow) : s.IsRegular := by
  intro a tree htree
  obtain ⟨cell, f, references, hcell, hcontent⟩ := tree?_eq_some_iff.1 htree
  exact ⟨Formula.isProper_of_tree (Grid.tree_of_ofRaw hgrid hcell hcontent), hshallow a tree htree⟩

/-- The calculation over two cells, each of which refers to the other. -/
def twoCycle : Calculation := ⟨Grid.twoCycle, .standard, 28⟩

theorem tree?_twoCycle_left : twoCycle.tree? ⟨0, 0⟩ = some (.cell ⟨0, 1⟩) :=
  tree?_eq_some_iff.2 ⟨_, _, _, Grid.cell?_twoCycle_left, rfl⟩

theorem tree?_twoCycle_right : twoCycle.tree? ⟨0, 1⟩ = some (.cell ⟨0, 0⟩) :=
  tree?_eq_some_iff.2 ⟨_, _, _, Grid.cell?_twoCycle_right, rfl⟩

theorem isShallow_of_tree?_twoCycle {a : Address} {tree : Expr}
    (h : twoCycle.tree? a = some tree) : tree.IsShallow := by
  obtain ⟨hrow, hcol⟩ := contains_of_tree? h
  obtain ⟨row, col⟩ := a
  obtain rfl : row = 0 := Nat.lt_one_iff.1 hrow
  obtain rfl | rfl : col = 0 ∨ col = 1 :=
    Nat.le_one_iff_eq_zero_or_eq_one.1 (Nat.lt_succ_iff.1 hcol)
  -- Both trees are a single reference.
  · rw [tree?_twoCycle_left] at h
    cases h
    decide
  · rw [tree?_twoCycle_right] at h
    cases h
    decide

theorem valueAlong_twoCycle :
    twoCycle.valueAlong [] ⟨0, 0⟩ =
      .error (.error ⟨.circular ⟨0, 0⟩ [⟨0, 0⟩, ⟨0, 1⟩], some ⟨0, 0⟩⟩) := by
  -- From the left cell to the right one and back, where the path is entered again.
  rw [valueAlong_of_tree? tree?_twoCycle_left (by decide), Expr.valueBy,
    valueAlong_of_tree? tree?_twoCycle_right (by decide), Expr.valueBy,
    valueAlong_of_mem (contains_of_tree? tree?_twoCycle_left) (by decide)]
  rfl

/-! ## Outcomes -/

/-- The outcome is right for the cell: it is a number exactly if the number can be derived, and
where nothing gives up a failure has the error of evaluation by recursion, as long as no cycle can
be reached. -/
structure Judges (s : Calculation) (a : Address) (o : Outcome) : Prop where
  ok_iff : ∀ v, o = .ok v ↔ s.Derivable a v
  error_eq : s.NeverAborts → ∀ f, o = .error f → s.IsGrounded a →
    s.valueAlong [] a = .error (.error f.error)

theorem judges_ok {v : Decimal} (h : s.Derivable a v) : s.Judges a (.ok v) where
  ok_iff w := by
    rw [← valueAlong_eq_ok_iff] at h ⊢
    rw [h, Except.ok.injEq, Except.ok.injEq]
  error_eq _ f hf := by cases hf

theorem judges_error {f : Failure} (h : ∀ v, ¬s.Derivable a v)
    (herror : s.NeverAborts → s.IsGrounded a → s.valueAlong [] a = .error (.error f.error)) :
    s.Judges a (.error f) where
  ok_iff v := by
    constructor
    · intro hv
      cases hv
    · exact fun hv => absurd hv (h v)
  error_eq hsafe f' hf hgrounded := by
    cases hf
    exact herror hsafe hgrounded

theorem Judges.valueAlong_eq {v : Decimal} (h : s.Judges a (.ok v)) :
    s.valueAlong [] a = .ok v :=
  valueAlong_eq_ok_iff.2 ((h.ok_iff v).1 rfl)

theorem Judges.not_derivable {f : Failure} (h : s.Judges a (.error f)) (v : Decimal) :
    ¬s.Derivable a v := by
  intro hv
  cases (h.ok_iff v).2 hv

/-- Where nothing gives up and no cycle can be reached, any two right outcomes have the same number
or error. -/
theorem Judges.mapError_eq {o o' : Outcome} (h : s.Judges a o) (h' : s.Judges a o')
    (hsafe : s.NeverAborts) (hgrounded : s.IsGrounded a) :
    o.mapError Failure.error = o'.mapError Failure.error := by
  cases o with
  | ok v =>
    obtain rfl := (h'.ok_iff v).2 ((h.ok_iff v).1 rfl)
    rfl
  | error f =>
    -- Two errors: both are that of recursion.
    cases o' with
    | ok v => exact absurd ((h'.ok_iff v).1 rfl) (h.not_derivable v)
    | error f' =>
      have herror :=
        (h.error_eq hsafe f rfl hgrounded).symm.trans (h'.error_eq hsafe f' rfl hgrounded)
      rw [Except.error.injEq, Stop.error.injEq] at herror
      exact congrArg Except.error herror

/-! ## Formulas under way -/

/-- What is left of the formula of a cell: the program comes to the value of the expression, with
at most `k` requests, all of them for mentioned cells inside of the grid. -/
structure Computes (s : Calculation) (c : Address) (k : Nat) (p : Program Decimal) : Prop where
  result : ∃ tree, s.tree? c = some tree ∧
    p.resultBy (s.valueAlong []) = tree.valueBy s (s.valueAlong [])
  behaves : p.Behaves (fun b => s.RefersTo c b ∧ s.grid.Contains b) s.NeverAborts k

variable {p : Program Decimal} {next : Decimal → Program Decimal}

theorem Computes.of_ask {v : Decimal} (h : s.Computes c k (.ask a next))
    (hv : s.valueAlong [] a = .ok v) : s.Computes c (k - 1) (next v) := by
  obtain ⟨⟨tree, htree, hresult⟩, -, -, hnext⟩ := h
  refine ⟨⟨tree, htree, ?_⟩, hnext v⟩
  rw [← hresult, Program.resultBy, hv]
  rfl

theorem Computes.judges_done {v : Decimal} (h : s.Computes c k (.done v)) :
    s.Judges c (.ok v) := by
  obtain ⟨tree, htree, hresult⟩ := h.result
  exact judges_ok (derivable_of_valueBy_eq_ok htree hresult.symm)

theorem Computes.not_derivable (h : s.Computes c k p)
    (hp : ∀ v, p.resultBy (s.valueAlong []) ≠ .ok v) (v : Decimal) : ¬s.Derivable c v := by
  obtain ⟨tree, htree, hresult⟩ := h.result
  exact fun hv => hp v (hresult.trans (hv.valueBy_eq_ok htree))

/-- A formula without a result has the error of what comes instead. -/
theorem Computes.judges_error {f : Failure} (h : s.Computes c k p)
    (hp : ∀ v, p.resultBy (s.valueAlong []) ≠ .ok v)
    (herror : s.NeverAborts → s.IsGrounded c →
      (p.resultBy (s.valueAlong [])).mapError (Stop.tag c) = .error (.error f.error)) :
    s.Judges c (.error f) := by
  refine Calculation.judges_error (h.not_derivable hp) fun hsafe hgrounded => ?_
  obtain ⟨tree, htree, hresult⟩ := h.result
  rw [hgrounded.valueAlong_nil_eq htree, ← hresult]
  exact herror hsafe hgrounded

theorem computes_program (hregular : s.IsRegular) {tree : Expr} (htree : s.tree? a = some tree) :
    s.Computes a (tree.requestBound s.grid.size) (tree.program s.setting Expr.maxHeight) := by
  obtain ⟨hproper, hshallow⟩ := hregular a tree htree
  refine ⟨⟨tree, htree, ?_⟩, ?_⟩
  · exact Expr.resultBy_program (fun b hb => valueAlong_of_not_contains hb) tree _ hshallow
  · exact (Expr.behaves_program tree _ hproper).imp fun b hb => ⟨⟨tree, htree, hb.1⟩, hb.2⟩

/-- The formulas on a stack wait, the topmost one for the cell `a` and every other one for the one
above it, and the last one is that of the cell `target`. Together they make at most `m` requests,
those under way included. -/
inductive Waits (s : Calculation) (target : Address) : Nat → Address → List Frame → Prop
  | nil : Waits s target 0 target []
  | cons {k m : Nat} {a : Address} {frame : Frame} {below : List Frame}
      (hcomputes : s.Computes frame.cell k (.ask a frame.next))
      (hwaits : Waits s target m frame.cell below) : Waits s target (k + m) a (frame :: below)

variable {below : List Frame}

theorem Computes.refersTo (h : s.Computes c k (.ask a next)) : s.RefersTo c a :=
  h.behaves.2.1.1

theorem Computes.contains (h : s.Computes c k (.ask a next)) : s.grid.Contains a :=
  h.behaves.2.1.2

/-- From every cell on the stack the cell for which the topmost one waits can be reached. -/
theorem Waits.transGen (h : s.Waits target m a below) (hc : c ∈ below.map (·.cell)) :
    Relation.TransGen s.RefersTo c a := by
  induction h with
  | nil => cases hc
  | cons hcomputes hwaits ih =>
    rcases List.mem_cons.1 hc with rfl | hc
    · exact .single hcomputes.refersTo
    -- The cell lies deeper: it reaches the topmost one, which mentions `a`.
    · exact (ih hc).tail hcomputes.refersTo

/-- If a cell has no value, then neither has a formula that waits for it. -/
theorem Waits.not_derivable (h : s.Waits target m a below) (ha : ∀ v, ¬s.Derivable a v)
    (hc : c ∈ below.map (·.cell)) (v : Decimal) : ¬s.Derivable c v := by
  intro hv
  obtain ⟨w, hw⟩ := hv.of_transGen (h.transGen hc)
  exact ha w hw

/-! ## Statuses -/

/-- The evaluation of the cell may have been given up, and it has no value. -/
def IsStuck (s : Calculation) (a : Address) : Prop :=
  ¬s.NeverAborts ∧ ∀ v, ¬s.Derivable a v

/-- The kept outcomes are right, and the cells in progress are those on the stack, apart from stuck
ones. -/
structure Remembers (s : Calculation) (status : Std.TreeMap Address Status)
    (stack : List Address) : Prop where
  nodup : stack.Nodup
  inProgress : ∀ a ∈ stack, status[a]? = some .inProgress
  mem_or_isStuck : ∀ a, status[a]? = some .inProgress → a ∈ stack ∨ s.IsStuck a
  judges : ∀ a o, status[a]? = some (.finished o) → s.Judges a o

variable {status : Std.TreeMap Address Status} {stack : List Address} {o : Outcome}

theorem getElem?_insert {st : Status} :
    (status.insert a st)[b]? = if b = a then some st else status[b]? := by
  simp only [Std.TreeMap.getElem?_insert, Std.LawfulEqCmp.compare_eq_iff_eq, @eq_comm _ b]

theorem remembers_empty : s.Remembers ∅ [] := by
  constructor <;> simp

/-- Where nothing gives up, no cell is stuck. -/
theorem Remembers.inProgress_iff (h : s.Remembers status stack) (hsafe : s.NeverAborts) :
    status[a]? = some .inProgress ↔ a ∈ stack :=
  ⟨fun ha => (h.mem_or_isStuck a ha).resolve_right fun hstuck => hstuck.1 hsafe, h.inProgress a⟩

theorem Remembers.not_mem (h : s.Remembers status stack) (ha : status[a]? ≠ some .inProgress) :
    a ∉ stack :=
  fun hmem => ha (h.inProgress a hmem)

/-- The formula of a cell that had no status begins. -/
theorem Remembers.begin (h : s.Remembers status stack) (ha : status[a]? = none) :
    s.Remembers (status.insert a .inProgress) (a :: stack) := by
  have hnew : a ∉ stack := h.not_mem (by simp [ha])
  refine ⟨List.nodup_cons.2 ⟨hnew, h.nodup⟩, fun b hb => ?_, fun b hb => ?_, fun b o hb => ?_⟩
  · -- the cells on the stack are in progress
    rw [getElem?_insert]
    split
    · rfl
    · rename_i hba
      exact h.inProgress b (List.mem_of_ne_of_mem hba hb)
  · -- the cells in progress are on the stack or stuck
    rw [getElem?_insert] at hb
    split at hb
    · rename_i hba
      exact .inl (hba ▸ List.mem_cons_self)
    · exact (h.mem_or_isStuck b hb).imp_left (List.mem_cons_of_mem a)
  · -- no outcome is new
    rw [getElem?_insert] at hb
    split at hb
    · cases hb
    · exact h.judges b o hb

/-- The outcome of a cell that is not on the stack is kept. -/
theorem Remembers.keep (hnodup : (a :: stack).Nodup)
    (hinProgress : ∀ b ∈ stack, status[b]? = some .inProgress)
    (hstuck : ∀ b, b ≠ a → status[b]? = some .inProgress → b ∈ stack ∨ s.IsStuck b)
    (hjudges : ∀ b o, b ≠ a → status[b]? = some (.finished o) → s.Judges b o)
    (ho : s.Judges a o) : s.Remembers (status.insert a (.finished o)) stack := by
  obtain ⟨hnew, hstack⟩ := List.nodup_cons.1 hnodup
  refine ⟨hstack, fun b hb => ?_, fun b hb => ?_, fun b o' hb => ?_⟩
  · -- the cells below stay in progress, since they are other cells
    have hba : b ≠ a := fun hba => hnew (hba ▸ hb)
    rw [getElem?_insert, if_neg hba]
    exact hinProgress b hb
  · -- the cell itself is in progress no more
    rw [getElem?_insert] at hb
    split at hb
    · cases hb
    · rename_i hba
      exact hstuck b hba hb
  · -- its outcome is the only new one
    rw [getElem?_insert] at hb
    split at hb
    · rename_i hba
      obtain rfl := hba
      cases hb
      exact ho
    · rename_i hba
      exact hjudges b o' hba hb

/-- The topmost cell on the stack gets its outcome. -/
theorem Remembers.keep_top (h : s.Remembers status (a :: stack)) (ho : s.Judges a o) :
    s.Remembers (status.insert a (.finished o)) stack := by
  refine Remembers.keep h.nodup (fun b hb => h.inProgress b (List.mem_cons_of_mem a hb))
    (fun b hba hb => ?_) (fun b o' _ => h.judges b o') ho
  exact (h.mem_or_isStuck b hb).imp_left (List.mem_of_ne_of_mem hba)

/-- A cell that had no status gets its outcome at once. -/
theorem Remembers.keep_new (h : s.Remembers status stack) (ha : status[a]? = none)
    (ho : s.Judges a o) : s.Remembers (status.insert a (.finished o)) stack :=
  Remembers.keep (h.begin ha).nodup h.inProgress (fun b _ => h.mem_or_isStuck b)
    (fun b o' _ => h.judges b o') ho

/-- An evaluation that is given up leaves the cells on the stack in progress. -/
theorem Remembers.give_up (h : s.Remembers status stack) (hstack : ∀ a ∈ stack, s.IsStuck a) :
    s.Remembers status [] where
  nodup := List.nodup_nil
  inProgress := List.forall_mem_nil _
  mem_or_isStuck a ha := .inr ((h.mem_or_isStuck a ha).elim (hstack a) id)
  judges := h.judges

/-! ## Turns to come -/

/-- The most turns that the formula of a cell takes. -/
def turnBound (s : Calculation) (a : Address) : Nat :=
  (s.grid.cell? a).elim 0 (Cell.turnBound s.grid.size)

/-- The most turns that the formulas without a status take together. -/
def pending (s : Calculation) (status : Std.TreeMap Address Status) : Nat :=
  (s.grid.addresses.map fun a => if status[a]?.isNone then s.turnBound a else 0).sum

theorem sum_map_add_le {as : List Address} {f g : Address → Nat} (ha : a ∈ as)
    (h : ∀ b, f b ≤ g b) (hn : f a + n ≤ g a) : (as.map f).sum + n ≤ (as.map g).sum := by
  induction as with
  | nil => cases ha
  | cons b as ih =>
    rw [List.map_cons, List.sum_cons, List.map_cons, List.sum_cons]
    -- `n` is gained at the element `a`: at the head, or in the tail by induction.
    rcases List.mem_cons.1 ha with rfl | ha
    · have hrest : (as.map f).sum ≤ (as.map g).sum := List.sum_le_sum fun b _ => h b
      omega
    · have hhead := h b
      have hrest := ih ha
      omega

theorem pending_insert_le {st : Status} : s.pending (status.insert a st) ≤ s.pending status := by
  refine List.sum_le_sum fun b _ => ?_
  rw [getElem?_insert]
  by_cases hb : b = a <;> simp [hb]

/-- The turns of a formula that begins are not pending any more. -/
theorem pending_insert_add_le {st : Status} (ha : s.grid.Contains a) (hstatus : status[a]? = none) :
    s.pending (status.insert a st) + s.turnBound a ≤ s.pending status := by
  refine sum_map_add_le (Grid.mem_addresses.2 ha) (fun b => ?_) ?_
  · rw [getElem?_insert]
    by_cases hb : b = a <;> simp [hb]
  · simp [hstatus]

theorem pending_le_turnBound : s.pending status ≤ s.grid.turnBound := by
  -- At most all formulas are pending ...
  have hall : s.pending status ≤ (s.grid.addresses.map s.turnBound).sum := by
    refine List.sum_le_sum fun b _ => ?_
    split <;> simp
  -- ... and the sum over the addresses is that over the cells.
  have hcells : s.grid.addresses.map s.turnBound =
      s.grid.cells.map (Cell.turnBound s.grid.size) := by
    have helim := congrArg (List.map (·.elim 0 (Cell.turnBound s.grid.size)))
      s.grid.map_cell?_addresses
    rwa [List.map_map, List.map_map] at helim
  rw [hcells, List.sum_eq_foldr, List.foldr_map] at hall
  exact hall

theorem turnBound_of_tree? {tree : Expr} (htree : s.tree? a = some tree) :
    s.turnBound a = tree.requestBound s.grid.size + 1 := by
  obtain ⟨cell, f, references, hcell, hcontent⟩ := tree?_eq_some_iff.1 htree
  rw [turnBound, hcell, Option.elim_some, Cell.turnBound, hcontent]

end Calculation

/-! ## Runs -/

/-- The invariant of an evaluation of the cell `target` that takes at most `n` more turns. -/
def Run.IsSound (s : Calculation) (target : Address) (n : Nat) (r : Run) : Prop :=
  r.evaluator.calculation = s ∧
    match r.phase with
    | .running c p below => ∃ k m, s.Computes c k p ∧ s.Waits target m c below ∧
        s.Remembers r.evaluator.status (c :: below.map (·.cell)) ∧
        s.pending r.evaluator.status + (k + 1) + m ≤ n
    | .returning o below => ∃ a m, s.Judges a o ∧ s.Waits target m a below ∧
        s.Remembers r.evaluator.status (below.map (·.cell)) ∧
        s.pending r.evaluator.status + m ≤ n
    | .aborted _ => ¬s.NeverAborts ∧ s.Remembers r.evaluator.status []

namespace Evaluator

variable {s : Calculation} {ev : Evaluator} {a c target : Address} {below : List Frame}
  {k m n : Nat}

theorem setting_eq (ev : Evaluator) : ev.setting = ev.calculation.setting := rfl

/-- A cell gets its outcome and leaves the stack. -/
theorem settle_isSound {o : Outcome} (hs : ev.calculation = s) (ho : s.Judges c o)
    (hwaits : s.Waits target m c below)
    (hstatus : s.Remembers ev.status (c :: below.map (·.cell)))
    (hn : s.pending ev.status + m ≤ n) : (ev.settle c o below).IsSound s target n := by
  refine ⟨hs, c, m, ho, hwaits, hstatus.keep_top ho, ?_⟩
  exact Nat.le_trans (Nat.add_le_add_right Calculation.pending_insert_le m) hn

/-- A cell without a formula gets its outcome as soon as it is asked for. -/
theorem settle_new_isSound {o : Outcome} (hs : ev.calculation = s) (ho : s.Judges c o)
    (hwaits : s.Waits target m c below) (hstatus : s.Remembers ev.status (below.map (·.cell)))
    (hc : ev.status[c]? = none) (hn : s.pending ev.status + m ≤ n) :
    (ev.settle c o below).IsSound s target n := by
  refine ⟨hs, c, m, ho, hwaits, hstatus.keep_new hc ho, ?_⟩
  exact Nat.le_trans (Nat.add_le_add_right Calculation.pending_insert_le m) hn

/-- No number can be derived for a cell on which a cell on the stack waits. -/
theorem judges_circular {f : Failure} (hwaits : s.Waits target m a below)
    (ha : a ∈ below.map (·.cell)) : s.Judges a (.error f) := by
  -- The cell reaches itself, so nothing can be derived for it and a cycle can be reached.
  have hcycle := hwaits.transGen ha
  refine Calculation.judges_error (fun v hv => ?_) fun _ hgrounded => ?_
  · exact hv.isGrounded.not_transGen hcycle
  · exact absurd hcycle hgrounded.not_transGen

theorem judges_stuck {f : Failure} (h : s.IsStuck a) : s.Judges a (.error f) :=
  Calculation.judges_error h.2 fun hsafe => absurd hsafe h.1

/-- A cell that has not begun before keeps the invariant: its content decides what comes of it. -/
theorem startCell_isSound (hregular : s.IsRegular) (hs : ev.calculation = s) {cell : Cell}
    (hcell : s.grid.cell? a = some cell) (hwaits : s.Waits target m a below)
    (hstatus : s.Remembers ev.status (below.map (·.cell))) (hnew : ev.status[a]? = none)
    (hn : s.pending ev.status + m ≤ n) :
    (ev.startCell a cell.content below).IsSound s target n := by
  have hvalue := Calculation.valueAlong_of_cell? hcell (List.not_mem_nil (a := a))
  unfold startCell
  split
  · -- a number
    rename_i value hcontent
    exact settle_new_isSound hs (Calculation.judges_ok (.literal hcell hcontent)) hwaits hstatus
      hnew hn
  · -- a text that is no formula
    rename_i fault hcontent
    rw [hcontent] at hvalue
    refine settle_new_isSound hs (Calculation.judges_error (fun v hv => ?_) fun _ _ => ?_) hwaits
      hstatus hnew hn
    · rw [← Calculation.valueAlong_eq_ok_iff, hvalue] at hv
      cases hv
    · rw [hvalue, Failure.error_eq_tag]
  · -- a formula begins, and its turns are no longer pending
    rename_i f tree references hcontent
    have ha : s.grid.Contains a := Grid.contains_of_cell? hcell
    have htree : s.tree? a = some tree :=
      Calculation.tree?_eq_some_iff.2 ⟨cell, f, references, hcell, hcontent⟩
    have hpending : s.pending (ev.status.insert a .inProgress) + s.turnBound a ≤
        s.pending ev.status := Calculation.pending_insert_add_le ha hnew
    rw [Calculation.turnBound_of_tree? htree] at hpending
    refine ⟨hs, tree.requestBound s.grid.size, m, ?_, hwaits, hstatus.begin hnew, ?_⟩
    · rw [setting_eq, hs]
      exact Calculation.computes_program hregular htree
    · exact Nat.le_trans (Nat.add_le_add_right hpending m) hn

/-- A request keeps the invariant: the cell has an outcome, or is on the stack, or begins. -/
theorem request_isSound (hregular : s.IsRegular) (hs : ev.calculation = s)
    (ha : s.grid.Contains a) (hwaits : s.Waits target m a below)
    (hstatus : s.Remembers ev.status (below.map (·.cell)))
    (hn : s.pending ev.status + m ≤ n) : (ev.request a below).IsSound s target n := by
  unfold request
  split
  · -- an outcome is kept
    rename_i o hfinished
    exact ⟨hs, a, m, hstatus.judges a o hfinished, hwaits, hstatus, hn⟩
  · -- in progress: on the stack, or left there by an evaluation that was given up
    rename_i hinProgress
    have ho : ∀ f, s.Judges a (.error f) := fun f =>
      (hstatus.mem_or_isStuck a hinProgress).elim (judges_circular hwaits) judges_stuck
    exact ⟨hs, a, m, ho _, hwaits, hstatus, hn⟩
  · -- no status: the content decides
    rename_i hnew
    obtain ⟨cell, hcell⟩ := Grid.exists_cell?_of_contains ha
    have hcell' : ev.calculation.grid.cell? a = some cell := by rwa [hs]
    rw [show ev.grid.cell? a = some cell from hcell']
    exact startCell_isSound hregular hs hcell hwaits hstatus hnew hn

/-- Going on with a formula keeps the invariant and uses up one of the turns to come. -/
theorem proceed_isSound (hregular : s.IsRegular) {p : Program Decimal} (hs : ev.calculation = s)
    (hcomputes : s.Computes c k p) (hwaits : s.Waits target m c below)
    (hstatus : s.Remembers ev.status (c :: below.map (·.cell)))
    (hn : s.pending ev.status + k + m ≤ n) : (ev.proceed c p below).IsSound s target n := by
  have hless : s.pending ev.status + m ≤ n := by omega
  cases p with
  | done value => exact settle_isSound hs hcomputes.judges_done hwaits hstatus hless
  | raise raised =>
    cases raised with
    | fault fault =>
      refine settle_isSound hs (hcomputes.judges_error (fun v hv => ?_) fun _ _ => ?_) hwaits
        hstatus hless
      · cases hv
      · rw [nextFailure, Failure.error_eq_tag]
        rfl
    | abort reason =>
      -- The formula has no value, and so no cell on the stack has one: all of them get stuck.
      have hnone := hcomputes.not_derivable (by rintro v ⟨⟩)
      refine ⟨hs, hcomputes.behaves, hstatus.give_up fun b hb => ⟨hcomputes.behaves, ?_⟩⟩
      rcases List.mem_cons.1 hb with rfl | hb
      · exact hnone
      · exact hwaits.not_derivable hnone hb
  | ask a next =>
    -- The formula goes on the stack, with all its requests still to be paid for.
    refine request_isSound hregular hs hcomputes.contains (.cons hcomputes hwaits) hstatus ?_
    rwa [← Nat.add_assoc]

end Evaluator

/-- Between evaluations only stuck cells are in progress, and what is kept is right. -/
def Evaluator.IsSound (s : Calculation) (ev : Evaluator) : Prop :=
  ev.calculation = s ∧ s.Remembers ev.status []

/-- What a computation with a result comes to: a sound evaluator, and a good result unless the
computation was given up. -/
def Evaluator.Answers {ε α : Type} (s : Calculation) (P : α → Prop)
    (answer : Evaluator × Except ε α) : Prop :=
  answer.1.IsSound s ∧
    match answer.2 with
    | .ok a => P a
    | .error _ => ¬s.NeverAborts

namespace Run

variable {s : Calculation} {target : Address} {n : Nat} {r : Run}

/-- The evaluation is over. -/
def IsOver (r : Run) : Prop :=
  match r.phase with
  | .returning _ [] | .aborted _ => True
  | _ => False

/-- A formula that waits for a cell without a value gets no value either. -/
theorem judges_waiting {f : Failure} {a c : Address} {k : Nat} {next : Decimal → Program Decimal}
    (hcomputes : s.Computes c k (.ask a next)) (ho : s.Judges a (.error f)) :
    s.Judges c (.error f) := by
  refine hcomputes.judges_error (fun v hv => ?_) fun hsafe hgrounded => ?_
  -- The program asks for `a` first, so a result would need the value of `a` ...
  · obtain ⟨w, hw, -⟩ := exists_of_bind_eq_ok hv
    exact ho.not_derivable w (Calculation.derivable_of_valueAlong_eq_ok hw)
  -- ... and the error of `a` is the error of the program.
  · rw [Program.resultBy, ho.error_eq hsafe f rfl (hgrounded.of_refersTo hcomputes.refersTo)]
    rfl

/-- One turn keeps the invariant and uses up one of the turns to come. -/
theorem IsSound.turn (hregular : s.IsRegular) (h : r.IsSound s target (n + 1)) (hover : ¬r.IsOver) :
    r.turn.IsSound s target n := by
  obtain ⟨ev, phase⟩ := r
  obtain ⟨hs, hphase⟩ := h
  cases phase with
  | running c p below =>
    obtain ⟨k, m, hcomputes, hwaits, hstatus, hn⟩ := hphase
    exact Evaluator.proceed_isSound hregular hs hcomputes hwaits hstatus (by omega)
  | returning o below =>
    obtain ⟨a, m, ho, hwaits, hstatus, hn⟩ := hphase
    cases hwaits with
    | nil => exact absurd trivial hover
    | cons hcomputes hwaits =>
      -- A formula that asks still has a request to make, which is used up now.
      have hpos := hcomputes.behaves.1
      cases o with
      | ok v =>
        exact Evaluator.proceed_isSound hregular hs (hcomputes.of_ask ho.valueAlong_eq) hwaits
          hstatus (by omega)
      | error f =>
        exact Evaluator.settle_isSound hs (judges_waiting hcomputes ho) hwaits hstatus (by omega)
  | aborted reason => exact absurd trivial hover

theorem IsSound.isOver (h : r.IsSound s target 0) : r.IsOver := by
  obtain ⟨ev, phase⟩ := r
  obtain ⟨-, hphase⟩ := h
  cases phase with
  | running c p below =>
    -- a running formula needs a turn for its end
    obtain ⟨k, m, -, -, -, hn⟩ := hphase
    omega
  | returning o below =>
    obtain ⟨a, m, -, hwaits, -, hn⟩ := hphase
    cases hwaits with
    | nil => trivial
    | cons hcomputes hwaits =>
      -- a formula that waits has a request to make
      have hpos := hcomputes.behaves.1
      omega
  | aborted reason => trivial

theorem IsSound.answers (h : r.IsSound s target n) (hover : r.IsOver) :
    Evaluator.Answers s (s.Judges target) (r.complete n) := by
  obtain ⟨ev, phase⟩ := r
  obtain ⟨hs, hphase⟩ := h
  rw [complete.eq_def]
  cases phase with
  | running => exact hover.elim
  | returning o below =>
    obtain ⟨a, m, ho, hwaits, hstatus, -⟩ := hphase
    cases hwaits with
    | nil => exact ⟨⟨hs, hstatus⟩, ho⟩
    | cons => exact hover.elim
  | aborted reason => exact ⟨⟨hs, hphase.2⟩, hphase.1⟩

theorem complete_succ (hover : ¬r.IsOver) : r.complete (n + 1) = r.turn.complete n := by
  rw [complete.eq_def]
  split <;> simp_all [IsOver]

/-- An evaluation comes to a right outcome in the turns that the invariant allows, unless it is
given up. -/
theorem IsSound.complete (hregular : s.IsRegular) (h : r.IsSound s target n) :
    Evaluator.Answers s (s.Judges target) (r.complete n) := by
  -- Induction on the turns to come: the invariant holds after each of them.
  induction n generalizing r with
  | zero => exact h.answers h.isOver
  | succ n ih =>
    by_cases hover : r.IsOver
    · exact h.answers hover
    · rw [complete_succ hover]
      exact ih (h.turn hregular hover)

end Run

namespace Evaluator

variable {s : Calculation} {ev : Evaluator} {a : Address} {ε α : Type} {P : α → Prop}
  {answer : Evaluator × Except ε α}

theorem start_isSound : (start s.grid s.functions s.scale).IsSound s :=
  ⟨rfl, Calculation.remembers_empty⟩

theorem IsSound.grid_eq (h : ev.IsSound s) : ev.grid = s.grid := by rw [← h.1]; rfl

theorem IsSound.compute (hregular : s.IsRegular) (h : ev.IsSound s) (ha : s.grid.Contains a) :
    Answers s (s.Judges a) (ev.compute s.grid.turnBound a) :=
  (request_isSound hregular h.1 ha .nil h.2 Calculation.pending_le_turnBound).complete hregular

/-- Where nothing gives up, a computation comes to a good result. -/
theorem Answers.exists_of_neverAborts (h : Answers s P answer) (hsafe : s.NeverAborts) :
    ∃ x, answer.2 = .ok x ∧ P x := by
  obtain ⟨ev, reason | x⟩ := answer
  · exact absurd hsafe h.2
  · exact ⟨x, rfl, h.2⟩

theorem Answers.of_eq_ok (h : Answers s P answer) {x : α} (hx : answer.2 = .ok x) : P x := by
  obtain ⟨ev, result⟩ := answer
  obtain rfl : result = .ok x := hx
  exact h.2

theorem Answers.mapError {ε' : Type} {f : ε → ε'} (h : Answers s P answer) :
    Answers s P (answer.1, answer.2.mapError f) := by
  obtain ⟨ev, reason | x⟩ := answer <;> exact h

theorem Answers.map {β : Type} {Q : β → Prop} {f : α → β} (hPQ : ∀ x, P x → Q (f x))
    (h : Answers s P answer) : Answers s Q (answer.1, answer.2.map f) := by
  obtain ⟨ev, reason | x⟩ := answer
  · exact h
  · exact ⟨h.1, hPQ x h.2⟩

theorem evaluate_of_contains (ha : ev.grid.Contains a) :
    ev.evaluate a = ((ev.compute ev.grid.turnBound a).1,
      (ev.compute ev.grid.turnBound a).2.mapError .abort) := by
  rw [evaluate, if_pos ha]
  rcases ev.compute ev.grid.turnBound a with ⟨ev', reason | o⟩ <;> rfl

theorem evaluate_of_not_contains (ha : ¬ev.grid.Contains a) :
    ev.evaluate a = (ev, .error (.fault (.outsideGrid a))) := if_neg ha

end Evaluator

end DecimalSheet
