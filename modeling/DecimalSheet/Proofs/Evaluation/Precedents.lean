import DecimalSheet.Proofs.Evaluation.Edges
import DecimalSheet.Proofs.Evaluation.Provenance
import DecimalSheet.Proofs.Evaluation.Trails

/-!
# Precedents

The dependencies that an evaluator has recorded are exactly those that its evaluations have used.
The precedents of a cell with a number are all cells that its formula mentions. Those of a cell that
has failed are the cells that its formula mentions up to the one that has handed on the failure, or
up to the place where the failure has arisen in the formula itself. Cells without a formula and
cells that have not been begun have none.

All precedents of a cell with a number have numbers, and so no cycle of the dependencies leads to
it.

## Main definitions

* `Evaluator.Precedes ev a b`: the cell `a` is a precedent of the cell `b`

## Main results

* `Evaluator.precedents_of_calls`: the precedents after any calls
* `Evaluator.precedents_first`: a failure without precedents that tells another cell
-/

namespace DecimalSheet

/-- The list of the references of a cell tells what its formula mentions, unless the tree of the
formula is too high. -/
theorem Grid.exists_needed {g : Grid} {table : RawValue} {marker : Option String}
    (hgrid : ofRaw table marker = .ok g) {a : Address} {tree : Expr}
    (htree : (g.cell? a).bind Cell.tree? = some tree) (hshallow : tree.IsShallow) :
    ∃ cell references, g.cell? a = some cell ∧ cell.needed = .ok references ∧
      ∀ b, b ∈ references.flatMap Reference.members ↔ b ∈ tree.mentions := by
  obtain ⟨cell, hcell, htree⟩ := Option.bind_eq_some_iff.1 htree
  obtain ⟨source, rfl⟩ := exists_of_ofRaw hgrid hcell
  refine ⟨_, tree.references.eraseDups, hcell, ?_, fun b => ?_⟩
  · -- No list is kept when a grid has been built.
    unfold Cell.tree? at htree
    split at htree
    · rename_i f tree' references hcontent
      obtain rfl := Option.some.inj htree
      rw [Cell.needed, hcontent, Content.references_of_ofRaw hcontent]
      exact if_pos hshallow
    · cases htree
  · simp [Expr.mentions]

namespace Evaluator

variable {ev : Evaluator} {s : Calculation} {denies : Failure → Address → Prop} {a b c : Address}
  {trail : List Address} {tree : Expr} {f : Failure}

/-- One cell is a precedent of another, as the edges of the dependencies tell. -/
def Precedes (ev : Evaluator) (a b : Address) : Prop := (a, b) ∈ ev.dependencies.edges

theorem HasAsked.precedents_eq (h : ev.HasAsked c trail) :
    ev.dependencies.precedents c = Dependencies.sorted trail :=
  Dependencies.precedents_eq_sorted h

theorem tree?_eq_none {cell : Cell} {o : Outcome} (hcell : ev.grid.cell? c = some cell)
    (hholds : cell.content.outcome? c = some o) : ev.calculation.tree? c = none :=
  (congrArg (·.bind Cell.tree?) hcell).trans (Cell.tree?_eq_none hholds)

/-- A cell with a number and a formula has asked for all cells that the formula mentions. -/
theorem Recorded.of_done (h : ev.Recorded denies c) (hstate : ev.state c = .done)
    (htree : ev.calculation.tree? c = some tree) :
    ev.HasAsked c tree.mentions ∧ ev.Knows tree.mentions := by
  obtain ⟨v, hv⟩ := state_eq_done_iff.1 hstate
  rw [outcome?_eq_some_iff] at hv
  cases h with
  | unasked h => cases hv.symm.trans h
  | held hcell hholds => cases htree.symm.trans (tree?_eq_none hcell hholds)
  | inProgress _ h | raised _ h | denied _ h => cases hv.symm.trans h
  | done htree' _ hasked hknows =>
    obtain rfl := Option.some.inj (htree.symm.trans htree')
    exact ⟨hasked, hknows⟩

/-- A failure is handed on by the last cell for which the formula has asked, or it has arisen in the
formula. -/
theorem Recorded.of_failed (h : ev.Recorded denies c) (hf : ev.outcome? c = some (.error f))
    (htree : ev.calculation.tree? c = some tree) :
    ∃ trail, trail <+: tree.mentions ∧ ev.HasAsked c trail ∧
      ((∃ before a, trail = before ++ [a] ∧ ev.Knows before ∧ denies f a) ∨
        ev.Knows trail ∧ ev.rest tree = .raise (.fault f.fault) ∧
          f.origin = f.fault.ownOrigin?.getD c) := by
  rw [outcome?_eq_some_iff] at hf
  cases h with
  | unasked h => cases hf.symm.trans h
  | held hcell hholds => cases htree.symm.trans (tree?_eq_none hcell hholds)
  | inProgress _ h | done _ h => cases hf.symm.trans h
  | @raised tree' f' trail htree' h hbegins hasked hknows hrest horigin =>
    obtain rfl := Option.some.inj (htree.symm.trans htree')
    cases hf.symm.trans h
    exact ⟨trail, hbegins, hasked, .inr ⟨hknows, hrest, horigin⟩⟩
  | @denied tree' f' trail a htree' h hbegins hasked hknows hdenies =>
    obtain rfl := Option.some.inj (htree.symm.trans htree')
    cases hf.symm.trans h
    exact ⟨trail ++ [a], hbegins, hasked, .inl ⟨trail, a, rfl, hknows, hdenies⟩⟩

/-- Cells without a formula and cells that have not been begun have asked for nothing. -/
theorem Recorded.of_none (h : ev.Recorded denies c)
    (hnone : ev.calculation.tree? c = none ∨ ev.state c = .notStarted) : ev.HasAsked c [] := by
  have hcontra : ∀ tree st, ev.calculation.tree? c = some tree → ev.status[c]? ≠ some st := by
    intro tree st htree h
    rw [htree, state, h] at hnone
    rcases hnone with hnone | hnone
    · cases hnone
    · rcases st with - | (f | v) <;> cases hnone
  cases h with
  | unasked _ hasked | held _ _ _ hasked => exact hasked
  | inProgress htree h | done htree h | raised htree h | denied htree h =>
    exact absurd h (hcontra _ _ htree)

/-- All precedents of a cell with a number have numbers, and its formula refers to them. -/
theorem Precedes.of_done (h : ev.Precedes a c) (hrecorded : ev.Recorded denies c)
    (hstate : ev.state c = .done) : ev.state a = .done ∧ ev.calculation.RefersTo c a := by
  have ha : c ∈ ev.dependencies.dependantsOf a := Dependencies.mem_edges.1 h
  cases htree : ev.calculation.tree? c with
  | none =>
    -- Without a formula there are no precedents.
    exact absurd ((hrecorded.of_none (.inl htree) a).1 ha) List.not_mem_nil
  | some tree =>
    obtain ⟨hasked, hknows⟩ := hrecorded.of_done hstate htree
    have hmem := (hasked a).1 ha
    obtain ⟨v, hv⟩ := hknows a hmem
    exact ⟨state_eq_done_iff.2 ⟨v, number?_eq_some_iff.1 hv⟩, tree, htree, hmem⟩

/-- A chain of precedents leads backwards along references, from one cell with a number to
another. -/
theorem transGen_of_done (hrecorded : ∀ c, ev.Recorded denies c)
    (h : Relation.TransGen ev.Precedes a c) (hstate : ev.state c = .done) :
    ev.state a = .done ∧ Relation.TransGen ev.calculation.RefersTo c a := by
  induction h with
  | single h =>
    obtain ⟨ha, hrefers⟩ := h.of_done (hrecorded _) hstate
    exact ⟨ha, .single hrefers⟩
  | tail _ h ih =>
    obtain ⟨hb, hrefers⟩ := h.of_done (hrecorded _) hstate
    obtain ⟨ha, hchain⟩ := ih hb
    exact ⟨ha, .head hrefers hchain⟩

/-- No cycle of the dependencies leads to a cell with a number. -/
theorem IsSound.not_transGen_precedes (hsound : ev.IsSound s)
    (hrecorded : ∀ c, ev.Recorded denies c) (hstate : ev.state c = .done)
    (hlead : Relation.ReflTransGen ev.Precedes a c) : ¬Relation.TransGen ev.Precedes a a := by
  intro hcycle
  have ha : ev.state a = .done := by
    rcases Relation.reflTransGen_iff_eq_or_transGen.1 hlead with rfl | hlead
    · exact hstate
    · exact (transGen_of_done hrecorded hlead hstate).1
  obtain ⟨v, hv⟩ := state_eq_done_iff.1 ha
  have hderivable := ((hsound.2.judges a _ (outcome?_eq_some_iff.1 hv)).ok_iff v).1 rfl
  have hrefers := (transGen_of_done hrecorded hcycle ha).2
  rw [hsound.1] at hrefers
  exact hderivable.isGrounded.not_transGen hrefers

/-- A failure that has arisen in the formula of a cell tells this cell, unless a function has failed
with it. -/
theorem origin_eq_or_of_rest (hrest : ev.rest tree = .raise (.fault f.fault))
    (horigin : f.origin = f.fault.ownOrigin?.getD c) :
    f.origin = c ∨ ev.functions.FailsWith f.fault := by
  refine (Expr.isPlain_or_of_rest hrest).imp_left fun hplain => ?_
  rw [horigin, show f.fault.ownOrigin? = none from hplain]
  rfl

/-- Whatever is asked of an evaluator, the precedents of a cell with a number are the cells to which
its formula refers. Those of a cell that has failed are the first cells that its formula mentions:
all of them but the last have numbers, and the last one has handed the failure on, or it has a
number also and the formula itself has come to the failure. Such a failure tells the cell, unless a
function has failed with it and it has an origin of its own. Cells without a formula and cells that
have not been begun have no precedents, and no cycle leads to a cell with a number. -/
theorem precedents_of_calls {s : Calculation} {table : RawValue} {marker : Option String}
    (hgrid : Grid.ofRaw table marker = .ok s.grid)
    (hshallow : ∀ a tree, s.tree? a = some tree → tree.IsShallow) (calls : List Call) :
    let ev := (start s.grid s.functions s.scale).after calls
    (∀ c tree, s.tree? c = some tree → ev.state c = .done →
      ∃ cell references, s.grid.cell? c = some cell ∧ cell.needed = .ok references ∧
        ev.dependencies.precedents c =
          Dependencies.sorted (references.flatMap Reference.members)) ∧
      (∀ c tree f, s.tree? c = some tree → ev.outcome? c = some (.error f) →
        ∃ trail, trail <+: tree.mentions ∧
          ev.dependencies.precedents c = Dependencies.sorted trail ∧
            ((∃ before a, trail = before ++ [a] ∧ ev.Knows before ∧ ev.Gives a (.error f)) ∨
              ev.Knows trail ∧ ev.rest tree = .raise (.fault f.fault) ∧
                f.origin = f.fault.ownOrigin?.getD c ∧
                  (f.origin = c ∨ s.functions.FailsWith f.fault))) ∧
        (∀ c, s.tree? c = none ∨ ev.state c = .notStarted → ev.dependencies.precedents c = []) ∧
          ∀ a c, ev.state c = .done → Relation.ReflTransGen ev.Precedes a c →
            ¬Relation.TransGen ev.Precedes a a := by
  intro ev
  obtain ⟨left, ⟨hs, hbusy⟩, hrecorded⟩ := Moment.exists_isTracked_after (s := s) hgrid calls
  have hsound : ev.IsSound s :=
    start_isSound.after (Calculation.isRegular_of_ofRaw hgrid hshallow) calls
  have hcalculation : ev.calculation = s := hs
  refine ⟨fun c tree htree hstate => ?_, fun c tree f htree hf => ?_, fun c hnone => ?_, ?_⟩
  · obtain ⟨cell, references, hcell, hneeded, hmem⟩ :=
      Grid.exists_needed hgrid htree (hshallow c tree htree)
    obtain ⟨hasked, -⟩ := (hrecorded c).of_done hstate (hcalculation ▸ htree)
    refine ⟨cell, references, hcell, hneeded, Dependencies.precedents_eq_sorted fun a => ?_⟩
    exact (hasked a).trans (hmem a).symm
  · obtain ⟨trail, hbegins, hasked, hfails⟩ := (hrecorded c).of_failed hf (hcalculation ▸ htree)
    refine ⟨trail, hbegins, hasked.precedents_eq, hfails.imp ?_ ?_⟩
    · -- Nothing is on its way any more, so the failure is kept, or the cell was left.
      rintro ⟨before, a, htrail, hknows, hdenies⟩
      refine ⟨before, a, htrail, hknows, hdenies.imp Moment.Fails.outcome?_eq ?_⟩
      rintro ⟨hleft, horigin, cycle, hfault⟩
      exact ⟨(hbusy.inProgress_iff a).2 (.inr hleft), f, cycle, rfl, hfault, horigin⟩
    · rintro ⟨hknows, hrest, horigin⟩
      have hfunctions : ev.functions = s.functions := congrArg Calculation.functions hcalculation
      exact ⟨hknows, hrest, horigin, hfunctions ▸ origin_eq_or_of_rest hrest horigin⟩
  · rw [← hcalculation] at hnone
    exact ((hrecorded c).of_none hnone).precedents_eq
  · exact fun a c hstate hlead => hsound.not_transGen_precedes hrecorded hstate hlead

theorem isShallow_of_tree?_large {functions : Registry} {scale : Int}
    (h : Calculation.tree? ⟨Grid.large, functions, scale⟩ a = some tree) : tree.IsShallow := by
  obtain ⟨hrow, hcol⟩ := Calculation.contains_of_tree? h
  obtain ⟨row, col⟩ := a
  obtain rfl : row = 0 := Nat.lt_one_iff.1 hrow
  replace hcol : col < 3 := hcol
  -- The first two cells hold formulas, and the last one a number.
  obtain rfl | rfl | rfl : col = 0 ∨ col = 1 ∨ col = 2 := by omega
  · obtain rfl := Option.some.inj h
    decide
  · obtain rfl := Option.some.inj h
    decide
  · cases h

/-- A formula that mentions one cell four times has one precedent. -/
theorem precedents_large :
    let ev := (start Grid.large .standard 28).after [.one ⟨0, 0⟩, .all]
    ev.state ⟨0, 1⟩ = .done ∧ ev.dependencies.precedents ⟨0, 1⟩ = [⟨0, 2⟩] := by
  intro ev
  have hstate : ev.state ⟨0, 1⟩ = .done := by decide +kernel
  obtain ⟨hdone, -⟩ := precedents_of_calls (s := ⟨Grid.large, .standard, 28⟩)
    Grid.ofRaw_largeTable (fun _ _ => isShallow_of_tree?_large) [.one ⟨0, 0⟩, .all]
  obtain ⟨cell, references, hcell, hneeded, hprecedents⟩ := hdone ⟨0, 1⟩ Grid.largeTree rfl hstate
  obtain rfl := Option.some.inj hcell
  obtain rfl : [.cell ⟨0, 2⟩] = references := Except.ok.inj hneeded
  exact ⟨hstate, hprecedents⟩

theorem isShallow_of_tree?_first {functions : Registry} {scale : Int}
    (h : Calculation.tree? ⟨Grid.first, functions, scale⟩ a = some tree) : tree.IsShallow := by
  obtain ⟨hrow, hcol⟩ := Calculation.contains_of_tree? h
  obtain ⟨row, col⟩ := a
  obtain rfl : row = 0 := Nat.lt_one_iff.1 hrow
  obtain rfl : col = 0 := Nat.lt_one_iff.1 hcol
  obtain rfl := Option.some.inj h
  decide

/-- A cell that has asked for nothing may have a failure that tells another cell, if a function
fails with a fault that is not plain. -/
theorem precedents_first :
    let misplaced : Registry := .register .standard "first" .misplaced none
    let ev := (start Grid.first misplaced 28).after [.one ⟨0, 0⟩]
    Grid.ofRaw Grid.firstTable (some "=") = .ok Grid.first ∧
      (∀ a tree, Calculation.tree? ⟨Grid.first, misplaced, 28⟩ a = some tree → tree.IsShallow) ∧
      ∃ f, ev.outcome? ⟨0, 0⟩ = some (.error f) ∧ ev.dependencies.precedents ⟨0, 0⟩ = [] ∧
        f.origin ≠ ⟨0, 0⟩ := by
  intro misplaced ev
  have horigin : ev.origin? ⟨0, 0⟩ = some ⟨1, 1⟩ := by decide +kernel
  obtain ⟨f, hf, hf'⟩ := exists_of_origin? horigin
  refine ⟨Grid.ofRaw_firstTable, fun _ _ => isShallow_of_tree?_first, f, hf, by decide +kernel, ?_⟩
  rw [hf']
  decide

end Evaluator

end DecimalSheet
