import DecimalSheet.Proofs.Evaluation.Soundness

/-!
# Calls of an evaluator

An evaluator may be asked for the outcome of one cell or of all cells, in any order and again and
again. Every answer is right, so which cells have numbers, and which numbers these are, does not
depend on what was asked before. The errors of cells on cycles do depend on it, but the errors of
cells from which no cycle can be reached do not, as long as nothing is given up. A division that is
given up leaves cells in progress, and later these are refused as if they lay on a cycle.

## Main definitions

* `Call`, `Evaluator.answer`: what an evaluator may be asked for, and its answers
* `Evaluator.after`: the evaluator after some calls
* `Evaluator.Returns`: an outcome of a cell is part of the answer to a call

## Main results

* `Evaluator.outcomes_of_calls`: the answers do not depend on the calls before
-/

namespace DecimalSheet

/-- What an evaluator may be asked for: the outcome of a cell, or all outcomes. -/
inductive Call where
  | one (a : Address)
  | all

/-- The cells whose outcomes are asked for, row by row. -/
def Call.cells (g : Grid) : Call → List (List Address)
  | one a => [[a]]
  | all => g.rowAddresses

/-- The call asks for nothing outside of the grid. -/
def Call.IsWithin (g : Grid) (call : Call) : Prop := ∀ a, call = .one a → g.Contains a

theorem Call.exists_of_not_isWithin {g : Grid} {call : Call} (h : ¬call.IsWithin g) :
    ∃ a, call = .one a ∧ ¬g.Contains a := by
  simpa [IsWithin] using h

namespace Evaluator

/-- The evaluator after a call, and the outcomes row by row. -/
def answer (ev : Evaluator) : Call → Evaluator × Except Raised (List (List Outcome))
  | .one a => ((ev.evaluate a).1, (ev.evaluate a).2.map fun o => [[o]])
  | .all => (ev.evaluateAll.1, ev.evaluateAll.2.mapError .abort)

/-- The evaluator after some calls. -/
def after (ev : Evaluator) (calls : List Call) : Evaluator :=
  calls.foldl (fun ev call => (ev.answer call).1) ev

/-- The outcome `o` of the cell `a` is part of the answer to a call. -/
def Returns (ev : Evaluator) (call : Call) (a : Address) (o : Outcome) : Prop :=
  ∃ rows, (ev.answer call).2 = .ok rows ∧ (a, o) ∈ (call.cells ev.grid).flatten.zip rows.flatten

variable {s : Calculation} {ev : Evaluator} {a : Address}

/-- Computations with good results come to good results in turn. -/
theorem IsSound.inTurn {α β : Type} {f : Evaluator → α → Evaluator × Except Abort β}
    {Q : α → β → Prop} {as : List α}
    (hf : ∀ ev a, a ∈ as → ev.IsSound s → Answers s (Q a) (f ev a)) (h : ev.IsSound s) :
    Answers s (List.Forall₂ Q as) (inTurn f ev as) := by
  induction as generalizing ev with
  | nil => exact ⟨h, .nil⟩
  | cons a as ih =>
    have hhead := hf ev a List.mem_cons_self h
    unfold Evaluator.inTurn
    split
    · -- the first computation is given up
      rename_i ev' reason heq
      rwa [heq] at hhead
    · -- it has a result, and the evaluator that it leaves is sound
      rename_i ev' b heq
      rw [heq] at hhead
      have htail := ih (fun ev a' ha' => hf ev a' (List.mem_cons_of_mem a ha')) hhead.1
      split
      · rename_i ev'' reason heq'
        rwa [heq'] at htail
      · rename_i ev'' bs heq'
        rw [heq'] at htail
        exact ⟨htail.1, .cons hhead.2 htail.2⟩

theorem IsSound.evaluate (hregular : s.IsRegular) (h : ev.IsSound s) (ha : s.grid.Contains a) :
    Answers s (s.Judges a) (ev.evaluate a) := by
  have hcompute := h.compute hregular ha
  -- The evaluator counts its turns by its own grid.
  rw [← h.grid_eq] at ha hcompute
  rw [evaluate_of_contains ha]
  exact hcompute.mapError

theorem IsSound.evaluateAll (hregular : s.IsRegular) (h : ev.IsSound s) :
    Answers s (List.Forall₂ (List.Forall₂ s.Judges) s.grid.rowAddresses) ev.evaluateAll := by
  have hrow : ∀ ev row, row ∈ s.grid.rowAddresses → ev.IsSound s →
      Answers s (List.Forall₂ s.Judges row)
        (Evaluator.inTurn (Evaluator.compute · s.grid.turnBound ·) ev row) := by
    intro ev row hmem hev
    refine hev.inTurn fun ev' a ha hev' => hev'.compute hregular ?_
    exact Grid.mem_addresses.1 (List.mem_flatten.2 ⟨row, hmem, ha⟩)
  have hrows := h.inTurn hrow
  unfold Evaluator.evaluateAll
  rw [h.grid_eq]
  split
  · rename_i ev' reason heq
    rwa [heq] at hrows
  · rename_i ev' rows heq
    rwa [heq] at hrows

/-- A call inside of the grid is answered with right outcomes, unless it is given up. -/
theorem IsSound.answer_of_isWithin (hregular : s.IsRegular) (h : ev.IsSound s) {call : Call}
    (hcall : call.IsWithin s.grid) :
    Answers s (List.Forall₂ (List.Forall₂ s.Judges) (call.cells s.grid)) (ev.answer call) := by
  cases call with
  | one a =>
    exact (h.evaluate hregular (hcall a rfl)).map fun o ho => .cons (.cons ho .nil) .nil
  | all => exact (h.evaluateAll hregular).mapError

/-- A call keeps an evaluator sound. One for a cell outside of the grid leaves it as it is. -/
theorem IsSound.answer (hregular : s.IsRegular) (h : ev.IsSound s) (call : Call) :
    (ev.answer call).1.IsSound s := by
  by_cases hcall : call.IsWithin s.grid
  · exact (h.answer_of_isWithin hregular hcall).1
  · obtain ⟨a, rfl, ha⟩ := Call.exists_of_not_isWithin hcall
    rw [← h.grid_eq] at ha
    rw [Evaluator.answer, evaluate_of_not_contains ha]
    exact h

theorem IsSound.after (hregular : s.IsRegular) (h : ev.IsSound s) (calls : List Call) :
    (ev.after calls).IsSound s := by
  induction calls generalizing ev with
  | nil => exact h
  | cons call calls ih => exact ih (h.answer hregular call)

/-- Only calls inside of the grid return outcomes. -/
theorem Returns.isWithin {call : Call} {o : Outcome} (h : ev.Returns call a o) :
    call.IsWithin ev.grid := by
  obtain ⟨rows, hrows, -⟩ := h
  rintro b rfl
  by_contra hb
  rw [Evaluator.answer, evaluate_of_not_contains hb] at hrows
  cases hrows

/-- Cells and outcomes correspond, row by row and then one by one. -/
theorem Returns.of_forall₂ {R : Address → Outcome → Prop} {call : Call} {o : Outcome}
    (h : ev.Returns call a o) (hR : ∀ rows, (ev.answer call).2 = .ok rows →
      List.Forall₂ (List.Forall₂ R) (call.cells ev.grid) rows) : R a o := by
  obtain ⟨rows, hrows, hmem⟩ := h
  exact (List.forall₂_iff_zip.1 (List.rel_flatten (hR rows hrows))).2 hmem

/-- The outcomes that calls return are right. -/
theorem IsSound.judges_of_returns (hregular : s.IsRegular) (h : ev.IsSound s) {call : Call}
    {o : Outcome} (hreturns : ev.Returns call a o) : s.Judges a o := by
  have hcall := hreturns.isWithin
  rw [h.grid_eq] at hcall
  refine hreturns.of_forall₂ fun rows hrows => ?_
  rw [h.grid_eq]
  exact (h.answer_of_isWithin hregular hcall).of_eq_ok hrows

theorem map_length_eq {cells : List (List Address)} {rows : List (List Outcome)}
    (h : List.Forall₂ (List.Forall₂ s.Judges) cells rows) :
    rows.map List.length = cells.map List.length := by
  induction h with
  | nil => rfl
  | cons hrow _ ih => rw [List.map_cons, List.map_cons, hrow.length_eq, ih]

/-- A cell has a number exactly if the number can be derived, whatever calls came before. So two
outcomes of one cell are the same number or both failures. Where nothing gives up, every call
inside of the grid returns an outcome for each of its cells, and failures have the same error if no
cycle can be reached. -/
theorem outcomes_of_calls (hregular : s.IsRegular) :
    let ev := start s.grid s.functions s.scale
    (∀ calls call a o, (ev.after calls).Returns call a o → ∀ v, o = .ok v ↔ s.Derivable a v) ∧
      (∀ calls calls' call call' a o o', (ev.after calls).Returns call a o →
        (ev.after calls').Returns call' a o' → ∀ v, o = .ok v ↔ o' = .ok v) ∧
      (s.NeverAborts →
        (∀ calls call, Call.IsWithin s.grid call →
          ∃ rows, ((ev.after calls).answer call).2 = .ok rows ∧
            rows.map List.length = (call.cells s.grid).map List.length) ∧
          ∀ calls calls' call call' a o o', (ev.after calls).Returns call a o →
            (ev.after calls').Returns call' a o' →
              (∀ b, Relation.ReflTransGen s.RefersTo a b → ¬Relation.TransGen s.RefersTo b b) →
                o.mapError Failure.error = o'.mapError Failure.error) := by
  intro ev
  -- Whatever was called, the evaluator is sound, so its outcomes are right.
  have hafter : ∀ calls, (ev.after calls).IsSound s :=
    fun calls => start_isSound.after hregular calls
  have hjudges : ∀ calls call a o, (ev.after calls).Returns call a o → s.Judges a o :=
    fun calls _ _ _ ho => (hafter calls).judges_of_returns hregular ho
  refine ⟨fun calls call a o ho => (hjudges calls call a o ho).ok_iff, ?_, fun hsafe => ⟨?_, ?_⟩⟩
  · -- both outcomes are `v` exactly if `v` can be derived
    intro calls calls' call call' a o o' ho ho' v
    exact ((hjudges _ _ _ _ ho).ok_iff v).trans ((hjudges _ _ _ _ ho').ok_iff v).symm
  · -- calls inside of the grid have answers
    intro calls call hcall
    obtain ⟨rows, hrows, hright⟩ :=
      ((hafter calls).answer_of_isWithin hregular hcall).exists_of_neverAborts hsafe
    exact ⟨rows, hrows, map_length_eq hright⟩
  · -- the errors are those of recursion
    intro calls calls' call call' a o o' ho ho' hacyclic
    exact (hjudges _ _ _ _ ho).mapError_eq (hjudges _ _ _ _ ho') hsafe
      (Calculation.isGrounded_of_forall_not_transGen hacyclic (List.forall_mem_nil _))

/-- Neither of two cells that refer to each other ever gets a value, but both get outcomes. -/
theorem outcomes_twoCycle :
    let ev := start Grid.twoCycle .standard 28
    (∃ rows, ((ev.after [.one ⟨0, 1⟩]).answer .all).2 = .ok rows ∧ rows.map List.length = [2]) ∧
      ∀ calls call o, (ev.after calls).Returns call ⟨0, 0⟩ o → ∀ v, o ≠ .ok v := by
  have hregular : Calculation.twoCycle.IsRegular :=
    Calculation.isRegular_of_ofRaw Grid.ofRaw_twoCycleTable
      fun _ _ => Calculation.isShallow_of_tree?_twoCycle
  have hsafe : Calculation.twoCycle.NeverAborts := ⟨Registry.neverAborts_standard, by decide⟩
  obtain ⟨hvalue, -, hanswer⟩ := outcomes_of_calls hregular
  refine ⟨(hanswer hsafe).1 [.one ⟨0, 1⟩] .all (by rintro a ⟨⟩), fun calls call o ho v hv => ?_⟩
  have hderivable := (hvalue calls call _ o ho v).1 hv
  rw [← Calculation.valueAlong_eq_ok_iff, Calculation.valueAlong_twoCycle] at hderivable
  cases hderivable

/-! ## A division that is given up -/

/-- The cell whose request was refused because the cell was in progress, if this is the error. -/
def refused? : Except CellError Decimal → Option Address
  | .error ⟨.circular a _, _⟩ => some a
  | _ => none

/-- The cell that is refused when the cell `a` is asked for. -/
def refusal? (ev : Evaluator) (a : Address) : Option Address :=
  (ev.evaluate a).2.toOption.bind fun o => refused? (o.mapError Failure.error)

theorem exists_of_refusal? {b : Address} (h : ev.refusal? a = some b) :
    ∃ o, ev.Returns (.one a) a o ∧ refused? (o.mapError Failure.error) = some b := by
  obtain ⟨o, ho, hb⟩ := Option.bind_eq_some_iff.1 h
  refine ⟨o, ⟨[[o]], ?_, List.mem_singleton_self _⟩, hb⟩
  cases hresult : (ev.evaluate a).2 with
  | error raised => simp [hresult, Except.toOption] at ho
  | ok o' =>
    rw [hresult] at ho
    obtain rfl := Option.some.inj ho
    rw [Evaluator.answer, hresult]
    rfl

theorem col_lt_of_refersTo {b : Address}
    (h : Calculation.RefersTo ⟨Grid.large, .standard, -1⟩ a b) : a.col < b.col := by
  obtain ⟨tree, htree, hb⟩ := h
  obtain ⟨hrow, hcol⟩ := Calculation.contains_of_tree? htree
  obtain ⟨row, col⟩ := a
  obtain rfl : row = 0 := Nat.lt_one_iff.1 hrow
  replace hcol : col < 3 := hcol
  -- The two formulas mention the cell on their right, and the last cell holds a number.
  obtain rfl | rfl | rfl : col = 0 ∨ col = 1 ∨ col = 2 := by omega
  · obtain rfl := Option.some.inj htree
    obtain rfl : b = ⟨0, 1⟩ := by simpa using hb
    decide
  · obtain rfl := Option.some.inj htree
    obtain rfl : b = ⟨0, 2⟩ := by simpa [Grid.largeTree] using hb
    decide
  · cases htree

/-- With a negative scale a division may be given up. The cells that it leaves in progress are
refused later, although they lie on no cycle, and which cell is refused first depends on the calls
before. -/
theorem outcomes_large :
    let s : Calculation := ⟨Grid.large, .standard, -1⟩
    let ev := start s.grid s.functions s.scale
    Grid.ofRaw Grid.largeTable (some "=") = .ok s.grid ∧ s.functions.NeverAborts ∧
      ∃ o o', (ev.after [.one ⟨0, 0⟩]).Returns (.one ⟨0, 0⟩) ⟨0, 0⟩ o ∧
        (ev.after [.one ⟨0, 1⟩]).Returns (.one ⟨0, 0⟩) ⟨0, 0⟩ o' ∧
          (∀ b, Relation.ReflTransGen s.RefersTo ⟨0, 0⟩ b → ¬Relation.TransGen s.RefersTo b b) ∧
            o.mapError Failure.error ≠ o'.mapError Failure.error := by
  intro s ev
  -- The first cell, or the second one, is left in progress by the first call.
  have hfirst : (ev.after [.one ⟨0, 0⟩]).refusal? ⟨0, 0⟩ = some ⟨0, 0⟩ := by decide +kernel
  have hsecond : (ev.after [.one ⟨0, 1⟩]).refusal? ⟨0, 0⟩ = some ⟨0, 1⟩ := by decide +kernel
  obtain ⟨o, ho, hrefused⟩ := exists_of_refusal? hfirst
  obtain ⟨o', ho', hrefused'⟩ := exists_of_refusal? hsecond
  -- All references lead to the right, so there is no cycle.
  have hlt : ∀ b c, Relation.TransGen s.RefersTo b c → b.col < c.col := by
    intro b c hbc
    induction hbc with
    | single h => exact col_lt_of_refersTo h
    | tail _ h ih => exact ih.trans (col_lt_of_refersTo h)
  refine ⟨Grid.ofRaw_largeTable, Registry.neverAborts_standard, o, o', ho, ho', ?_, fun h => ?_⟩
  · exact fun b _ hb => Nat.lt_irrefl _ (hlt b b hb)
  · rw [h, hrefused'] at hrefused
    exact absurd hrefused (by decide)

end Evaluator

end DecimalSheet
