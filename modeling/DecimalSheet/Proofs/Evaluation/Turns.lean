import DecimalSheet.Proofs.Evaluation.Progress

/-!
# Turns of an evaluation

Every evaluation comes to its end, whatever the evaluator has found before and whatever its formulas
are. A turn either goes on with a formula for the first time or answers one of its requests, so the
turns are paid for by the formulas that have not begun, with one turn for each and one for each
request that it can make. How many requests these are depends on the functions and on the size of
the grid, since the first member of a range outside of the grid ends a formula.

An evaluation that is over stays as it is, so more turns than are needed change nothing.

## Main definitions

* `Program.AsksAtMost n p`: a bound on the requests of a program
* `Program.requestCount p`: the number of requests that a program can make
* `Program.askEach`: asking for the values of several cells, one after the other
* `Evaluator.unstarted`: the programs of the formulas that have not begun
* `Run.IsPaid n r`: the invariant of an evaluation that takes at most `n` more turns

## Main results

* `Run.IsPaid.turn`: one turn keeps the invariant and uses up one of the turns to come
* `Run.complete_eq`: more turns than are needed change nothing
* `Evaluator.turns_of_request`: the turns of an evaluation, and the requests of a range
-/

namespace DecimalSheet

/-! ## Requests of programs -/

namespace Program

variable {α β : Type} {m n : Nat} {p : Program α}

/-- The program makes at most `n` requests, whatever values it is given. -/
def AsksAtMost (n : Nat) (p : Program α) : Prop := p.Behaves (fun _ => True) False n

theorem AsksAtMost.bind {f : α → Program β} (h : p.AsksAtMost m)
    (hf : ∀ v, (f v).AsksAtMost n) : (p >>= f).AsksAtMost (m + n) :=
  Behaves.bind h hf

theorem asksAtMost_ofExcept {x : Except Raised α} : (ofExcept x).AsksAtMost 0 :=
  behaves_ofExcept fun h => h.elim

/-- The number of requests that a program can make: the least bound on them. -/
noncomputable def requestCount (p : Program α) : Nat := sInf {n | p.AsksAtMost n}

theorem AsksAtMost.requestCount (h : p.AsksAtMost n) : p.AsksAtMost p.requestCount :=
  Nat.sInf_mem (s := {n | p.AsksAtMost n}) ⟨n, h⟩

theorem AsksAtMost.requestCount_le (h : p.AsksAtMost n) : p.requestCount ≤ n :=
  Nat.sInf_le h

/-- Asks for the values of cells in turn. They are put before those found so far, so that the last
one comes first. -/
def askEach (as : List Address) (found : List Decimal) (next : List Decimal → Program α) :
    Program α :=
  match as with
  | [] => next found
  | a :: as => .ask a fun v => askEach as (v :: found) next

end Program

namespace Calculation

variable {s : Calculation}

theorem request_of_contains {α : Type} {a : Address} {next : Decimal → Program α}
    (h : s.grid.Contains a) : s.setting.request a next = .ask a next := if_pos h

theorem request_of_not_contains {α : Type} {a : Address} {next : Decimal → Program α}
    (h : ¬s.grid.Contains a) : s.setting.request a next = .raise (.fault (.outsideGrid a)) :=
  if_neg h

/-- A range asks for its members up to the first one that lies outside of the grid, and fails with
this one if there is one. -/
theorem members_eq_askEach (s : Calculation) (r : Range) (i : Nat) (found : List Decimal)
    (count : Nat) :
    s.setting.members r i found count =
      .askEach (((List.range' i count).map r.member).takeWhile s.grid.Contains) found
        ((((List.range' i count).map r.member).find? (¬s.grid.Contains ·)).elim .done
          fun a _ => .raise (.fault (.outsideGrid a))) := by
  induction count generalizing i found with
  | zero => rfl
  | succ count ih =>
    rw [Setting.members, List.range'_succ, List.map_cons]
    by_cases hcontains : s.grid.Contains (r.member i)
    · -- the member is asked for, and then those behind it
      rw [request_of_contains hcontains, List.takeWhile_cons_of_pos (by simpa using hcontains),
        List.find?_cons_of_neg (by simpa using hcontains), Program.askEach]
      exact congrArg _ (funext fun v => ih (i + 1) (v :: found))
    · rw [request_of_not_contains hcontains, List.takeWhile_cons_of_neg (by simpa using hcontains),
        List.find?_cons_of_pos (by simpa using hcontains)]
      rfl

theorem asksAtMost_request {α : Type} {n : Nat} {a : Address} {next : Decimal → Program α}
    (h : ∀ v, (next v).AsksAtMost n) : (s.setting.request a next).AsksAtMost (n + 1) := by
  unfold Setting.request
  split
  · exact ⟨Nat.succ_pos n, trivial, h⟩
  · trivial

theorem asksAtMost_range {room : Nat} {r : Range} {found : List Decimal} :
    (s.setting.argumentMembers room r found).AsksAtMost (min r.size s.grid.size) :=
  behaves_range.imp fun _ _ => trivial

theorem asksAtMost_apply (op : Operator) (a b : Decimal) :
    (s.setting.apply op a b).AsksAtMost 0 := by
  cases op with
  | add | sub | mul => trivial
  | div => exact Program.asksAtMost_ofExcept
  | unknown symbol => exact id

end Calculation

namespace Expr

variable {s : Calculation}

mutual

/-- The bound on the requests of an expression bounds those of its program, whatever tree the
expression is. -/
theorem asksAtMost_program :
    (e : Expr) → (room : Nat) →
      (e.program s.setting room).AsksAtMost (e.requestBound s.grid.size)
  | _, 0 | number _, _ + 1 | range _, _ + 1 => by unfold program; trivial
  | foreign _, _ + 1 => by
    unfold program
    exact id
  | cell a, room + 1 => by
    rw [program]
    exact Calculation.asksAtMost_request fun _ => trivial
  | negate operand, room + 1 => by
    rw [program, requestBound]
    exact (asksAtMost_program operand room).bind (n := 0) fun _ => trivial
  | binary op left right, room + 1 => by
    rw [program, requestBound]
    exact (asksAtMost_program left room).bind fun a =>
      (asksAtMost_program right room).bind (n := 0) fun b => Calculation.asksAtMost_apply op a b
  | call name args, room + 1 => by
    rw [program, requestBound]
    split
    · trivial
    · exact (asksAtMost_argumentsProgram args room []).bind (n := 0) fun _ =>
        Program.asksAtMost_ofExcept

theorem asksAtMost_argumentsProgram :
    (es : List Expr) → (room : Nat) → (found : List Decimal) →
      (argumentsProgram s.setting room found es).AsksAtMost (argumentsBound s.grid.size es)
  | [], _, _ => trivial
  | e :: args, room, found => by
    have hvalue := asksAtMost_program e room
    have hargs := asksAtMost_argumentsProgram args room
    cases e with
    | range r =>
      rw [argumentsProgram, argumentsBound]
      exact Calculation.asksAtMost_range.bind hargs
    | _ =>
      simp only [argumentsProgram, argumentsBound]
      exact hvalue.bind fun v => hargs (v :: found)

end

end Expr

/-! ## Formulas that have not begun -/

namespace Calculation

variable {s : Calculation} {status : Std.TreeMap Address Status} {a : Address}

/-- The program of the formula of a cell, if it holds one. -/
def program? (s : Calculation) (a : Address) : Option (Program Decimal) :=
  (s.tree? a).map fun tree => tree.program s.setting Expr.maxHeight

/-- The programs of the formulas of the cells without a status, in row-major order. -/
def unstarted (s : Calculation) (status : Std.TreeMap Address Status) : List (Program Decimal) :=
  s.grid.addresses.filterMap fun a => if status[a]?.isNone then s.program? a else none

/-- The turns that formulas which have not begun may take: one for each of them, and one for each
request that it can make. -/
noncomputable def unstartedTurns (s : Calculation) (status : Std.TreeMap Address Status) : Nat :=
  (s.unstarted status).length + ((s.unstarted status).map Program.requestCount).sum

/-- The turns of the formula of a cell, if it holds one. -/
noncomputable def formulaTurns (s : Calculation) (a : Address) : Nat :=
  (s.program? a).elim 0 fun p => p.requestCount + 1

theorem length_add_sum_filterMap {α β : Type} (f : α → Option β) (g : β → Nat) (as : List α) :
    (as.filterMap f).length + ((as.filterMap f).map g).sum =
      (as.map fun a => (f a).elim 0 fun b => g b + 1).sum := by
  induction as with
  | nil => rfl
  | cons a as ih =>
    rw [List.map_cons, List.sum_cons, ← ih]
    cases hf : f a with
    | none => simp [hf]
    | some b =>
      simp only [List.filterMap_cons_some hf, List.length_cons, List.map_cons, List.sum_cons,
        Option.elim_some]
      omega

/-- The turns are a sum over the addresses of the grid. -/
theorem unstartedTurns_eq (s : Calculation) (status : Std.TreeMap Address Status) :
    s.unstartedTurns status =
      (s.grid.addresses.map fun a => if status[a]?.isNone then s.formulaTurns a else 0).sum := by
  rw [unstartedTurns, unstarted, length_add_sum_filterMap]
  congr 2
  funext a
  split <;> rfl

theorem unstartedTurns_insert_le {st : Status} :
    s.unstartedTurns (status.insert a st) ≤ s.unstartedTurns status := by
  rw [unstartedTurns_eq, unstartedTurns_eq]
  refine List.sum_le_sum fun b _ => ?_
  rw [getElem?_insert]
  by_cases hb : b = a <;> simp [hb]

/-- A formula that begins takes its turns with it. -/
theorem unstartedTurns_insert_add_le {st : Status} (ha : s.grid.Contains a)
    (hstatus : status[a]? = none) :
    s.unstartedTurns (status.insert a st) + s.formulaTurns a ≤ s.unstartedTurns status := by
  rw [unstartedTurns_eq, unstartedTurns_eq]
  refine sum_map_add_le (Grid.mem_addresses.2 ha) (fun b => ?_) ?_
  · rw [getElem?_insert]
    by_cases hb : b = a <;> simp [hb]
  · simp [hstatus]

theorem asksAtMost_of_program? {p : Program Decimal} (h : s.program? a = some p) :
    ∃ n, s.turnBound a = n + 1 ∧ p.AsksAtMost n := by
  obtain ⟨tree, htree, rfl⟩ := Option.map_eq_some_iff.1 h
  exact ⟨_, turnBound_of_tree? htree, Expr.asksAtMost_program tree _⟩

theorem formulaTurns_le_turnBound : s.formulaTurns a ≤ s.turnBound a := by
  unfold formulaTurns
  cases hp : s.program? a with
  | none => exact Nat.zero_le _
  | some p =>
    obtain ⟨n, hbound, hp⟩ := asksAtMost_of_program? hp
    rw [hbound]
    exact Nat.succ_le_succ hp.requestCount_le

/-- The turns that a grid allows are enough. -/
theorem unstartedTurns_le_turnBound : s.unstartedTurns status ≤ s.grid.turnBound := by
  have hpending : s.pending status ≤ s.grid.turnBound := pending_le_turnBound
  refine Nat.le_trans ?_ hpending
  rw [unstartedTurns_eq]
  refine List.sum_le_sum fun b _ => ?_
  split
  · exact formulaTurns_le_turnBound
  · exact Nat.le_refl 0

end Calculation

/-! ## Runs -/

/-- The formulas that wait make at most `m` requests together, those under way included. -/
inductive Owes : Nat → List Frame → Prop
  | nil : Owes 0 []
  | cons {k m : Nat} {frame : Frame} {below : List Frame}
      (hnext : ∀ v, (frame.next v).AsksAtMost k) (hbelow : Owes m below) :
      Owes (k + 1 + m) (frame :: below)

/-- The invariant of an evaluation that takes at most `n` more turns. -/
def Run.IsPaid (n : Nat) (r : Run) : Prop :=
  match r.phase with
  | .running _ p below => ∃ k m, p.AsksAtMost k ∧ Owes m below ∧
      r.evaluator.calculation.unstartedTurns r.evaluator.status + (k + 1) + m ≤ n
  | .returning _ below => ∃ m, Owes m below ∧
      r.evaluator.calculation.unstartedTurns r.evaluator.status + m ≤ n
  | .aborted _ => True

namespace Evaluator

variable {ev : Evaluator} {a c : Address} {below : List Frame} {p : Program Decimal}
  {k m n : Nat} {o : Outcome}

theorem settle_isPaid (hbelow : Owes m below)
    (hn : ev.calculation.unstartedTurns ev.status + m ≤ n) : (ev.settle c o below).IsPaid n :=
  ⟨m, hbelow, Nat.le_trans (Nat.add_le_add_right Calculation.unstartedTurns_insert_le m) hn⟩

/-- A request is free unless a formula begins, which takes its turns with it. -/
theorem RequestsTo.isPaid {r : Run} (h : ev.RequestsTo a below r) (hbelow : Owes m below)
    (hn : ev.calculation.unstartedTurns ev.status + m ≤ n) : r.IsPaid n := by
  cases h with
  | kept | refused | outside => exact ⟨m, hbelow, hn⟩
  | literal | unreadable => exact settle_isPaid hbelow hn
  | @formula cell f tree references hnew hcell hcontent =>
    have htree : ev.calculation.tree? a = some tree :=
      Calculation.tree?_eq_some_iff.2 ⟨cell, f, references, hcell, hcontent⟩
    have hprogram : ev.calculation.program? a = some (tree.program ev.setting Expr.maxHeight) :=
      congrArg (Option.map _) htree
    obtain ⟨k, -, hasks⟩ := Calculation.asksAtMost_of_program? hprogram
    have hturns : ev.calculation.unstartedTurns (ev.status.insert a .inProgress) +
        ev.calculation.formulaTurns a ≤ ev.calculation.unstartedTurns ev.status :=
      Calculation.unstartedTurns_insert_add_le (Grid.contains_of_cell? hcell) hnew
    rw [Calculation.formulaTurns, hprogram, Option.elim_some] at hturns
    exact ⟨_, m, hasks.requestCount, hbelow, Nat.le_trans (Nat.add_le_add_right hturns m) hn⟩

theorem proceed_isPaid (hp : p.AsksAtMost k) (hbelow : Owes m below)
    (hn : ev.calculation.unstartedTurns ev.status + k + m ≤ n) :
    (ev.proceed c p below).IsPaid n := by
  have hless : ev.calculation.unstartedTurns ev.status + m ≤ n := by omega
  cases p with
  | done value => exact settle_isPaid hbelow hless
  | raise raised =>
    cases raised with
    | fault fault =>
      show (ev.countFailure.settle c _ below).IsPaid n
      exact settle_isPaid hbelow hless
    | abort reason => trivial
  | ask a next =>
    -- The request under way is still to be paid for.
    obtain ⟨hpos, -, hnext⟩ := hp
    refine (requestsTo_request (ev.depend a c) a _).isPaid (.cons hnext hbelow) ?_
    show ev.calculation.unstartedTurns ev.status + _ ≤ n
    omega

end Evaluator

namespace Run

variable {k n : Nat} {r : Run}

/-- One turn keeps the invariant and uses up one of the turns to come. -/
theorem IsPaid.turn (h : r.IsPaid (n + 1)) (hover : ¬r.IsOver) : r.turn.IsPaid n := by
  obtain ⟨ev, phase⟩ := r
  cases phase with
  | running c p below =>
    obtain ⟨k, m, hp, hbelow, hn⟩ := h
    exact Evaluator.proceed_isPaid hp hbelow (by omega)
  | returning o below =>
    obtain ⟨m, hbelow, hn⟩ := h
    cases hbelow with
    | nil => exact absurd trivial hover
    | cons hnext hbelow =>
      cases o with
      | ok v => exact Evaluator.proceed_isPaid (hnext v) hbelow (by omega)
      | error f => exact Evaluator.settle_isPaid hbelow (by omega)
  | aborted reason => exact absurd trivial hover

theorem IsPaid.isOver (h : r.IsPaid 0) : r.IsOver := by
  obtain ⟨ev, phase⟩ := r
  cases phase with
  | running c p below =>
    obtain ⟨k, m, -, -, hn⟩ := h
    omega
  | returning o below =>
    obtain ⟨m, hbelow, hn⟩ := h
    cases hbelow with
    | nil => trivial
    | cons => omega
  | aborted reason => trivial

/-- An evaluation that is over stays as it is. -/
theorem turn_of_isOver (hover : r.IsOver) : r.turn = r := by
  obtain ⟨ev, phase⟩ := r
  cases phase with
  | running => exact hover.elim
  | returning o below =>
    cases below with
    | nil => cases o <;> rfl
    | cons => exact hover.elim
  | aborted reason => rfl

theorem iterate_turn_of_isOver (hover : r.IsOver) (k : Nat) : Run.turn^[k] r = r :=
  Function.iterate_fixed (turn_of_isOver hover) k

theorem complete_eq_complete_zero (hover : r.IsOver) (n : Nat) : r.complete n = r.complete 0 := by
  obtain ⟨ev, phase⟩ := r
  cases phase with
  | running => exact hover.elim
  | returning o below =>
    cases below with
    | nil => rw [complete.eq_def, complete.eq_def]
    | cons => exact hover.elim
  | aborted reason => rw [complete.eq_def, complete.eq_def]

/-- An evaluation comes to its end after a number of turns and not before. -/
theorem IsPaid.exists_isOver_iff (h : r.IsPaid n) :
    ∃ turns ≤ n, ∀ k, (Run.turn^[k] r).IsOver ↔ turns ≤ k := by
  induction n generalizing r with
  | zero =>
    refine ⟨0, Nat.le_refl 0, fun k => iff_of_true ?_ (Nat.zero_le k)⟩
    exact (iterate_turn_of_isOver h.isOver k).symm ▸ h.isOver
  | succ n ih =>
    by_cases hover : r.IsOver
    · refine ⟨0, Nat.zero_le _, fun k => iff_of_true ?_ (Nat.zero_le k)⟩
      exact (iterate_turn_of_isOver hover k).symm ▸ hover
    · obtain ⟨turns, hle, hturns⟩ := ih (h.turn hover)
      refine ⟨turns + 1, Nat.succ_le_succ hle, fun k => ?_⟩
      cases k with
      | zero => exact iff_of_false hover (Nat.not_succ_le_zero turns)
      | succ k => rw [Function.iterate_succ_apply, hturns, Nat.succ_le_succ_iff]

/-- More turns than are needed change nothing. -/
theorem complete_eq (hover : (Run.turn^[k] r).IsOver) (hk : k ≤ n) :
    r.complete n = (Run.turn^[k] r).complete 0 := by
  induction k generalizing r n with
  | zero => exact complete_eq_complete_zero hover n
  | succ k ih =>
    by_cases hnow : r.IsOver
    · rw [iterate_turn_of_isOver hnow]
      exact complete_eq_complete_zero hnow n
    · obtain ⟨n, rfl⟩ := Nat.exists_eq_succ_of_ne_zero (Nat.ne_zero_of_lt hk)
      rw [complete_succ hnow]
      exact ih hover (Nat.le_of_succ_le_succ hk)

end Run

namespace Evaluator

/-- The programs of the formulas that have not begun, in row-major order. -/
def unstarted (ev : Evaluator) : List (Program Decimal) := ev.calculation.unstarted ev.status

/-- The evaluation of a cell comes to its end after a number of turns, and more of them change
nothing. -/
theorem exists_turns (ev : Evaluator) (a : Address) :
    ∃ turns ≤ ev.calculation.unstartedTurns ev.status,
      (∀ k, (Run.turn^[k] (ev.request a [])).IsOver ↔ turns ≤ k) ∧
        ∀ k, turns ≤ k → ev.compute k a = (Run.turn^[turns] (ev.request a [])).complete 0 := by
  have hpaid : (ev.request a []).IsPaid (ev.calculation.unstartedTurns ev.status) :=
    (ev.requestsTo_request a []).isPaid .nil (Nat.le_refl _)
  obtain ⟨turns, hle, hturns⟩ := hpaid.exists_isOver_iff
  exact ⟨turns, hle, hturns, fun k => Run.complete_eq ((hturns turns).2 (Nat.le_refl turns))⟩

/-- Whatever has been found before, the evaluation of a cell comes to its end after a number of
turns: at most one for each formula that has not begun, and one for each request that such a formula
can make. More turns change nothing, and those that the grid allows are enough. However large a
range is, it asks for no more cells than the grid has, and then it comes to its end or fails with
its first member outside of the grid. -/
theorem turns_of_request (ev : Evaluator) (a : Address) :
    (∃ turns ≤ ev.unstarted.length + (ev.unstarted.map Program.requestCount).sum,
        (∀ k, (Run.turn^[k] (ev.request a [])).IsOver ↔ turns ≤ k) ∧
          ∀ k, turns ≤ k → ev.compute k a = ev.compute ev.grid.turnBound a) ∧
      ∀ (r : Range) (found : List Decimal),
        let inside := r.members.takeWhile ev.grid.Contains
        let outside? := r.members.find? (¬ev.grid.Contains ·)
        inside.length ≤ ev.grid.height * ev.grid.width ∧
          ev.setting.members r 0 found r.size =
            .askEach inside found
              (outside?.elim .done fun b _ => .raise (.fault (.outsideGrid b))) := by
  refine ⟨?_, fun r found => ⟨?_, ?_⟩⟩
  · obtain ⟨turns, hle, hturns, hcompute⟩ := exists_turns ev a
    have hbound : turns ≤ ev.grid.turnBound :=
      Nat.le_trans hle Calculation.unstartedTurns_le_turnBound
    exact ⟨turns, hle, hturns, fun k hk => (hcompute k hk).trans (hcompute _ hbound).symm⟩
  · -- the members are distinct
    refine Grid.length_le_size ?_ fun b hb => by simpa using List.mem_takeWhile_imp hb
    refine (List.takeWhile_sublist _).nodup ?_
    rw [Range.members_eq_map]
    exact List.nodup_range.map r.member_injective
  · rw [Range.members_eq_map, List.range_eq_range']
    exact Calculation.members_eq_askEach ev.calculation r 0 found r.size

end Evaluator

end DecimalSheet
