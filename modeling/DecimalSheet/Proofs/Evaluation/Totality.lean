import DecimalSheet.Proofs.Evaluation.Answers
import DecimalSheet.Proofs.Evaluation.Provenance
import DecimalSheet.Proofs.Grid.Tables

/-!
# Evaluations that always have a result

Every rectangle of texts makes a grid. With the standard functions and a scale that is not negative,
evaluating all its cells comes to a table of the same size, whatever the texts are: each entry is a
number, or a failure that tells the cell of the grid in which it arose.

No way out is left. A formula asks only for cells that the grid has, it raises nothing but faults
that become failures of its cell, and the standard functions have values wherever they are called
without being refused.

## Main results

* `Evaluator.exists_evaluateAll`: where nothing gives up, evaluating all cells has a result
* `Evaluator.exists_evaluateAll_of_texts`: the result for every rectangle of texts
-/

namespace DecimalSheet

namespace Moment

variable {s : Calculation} {table : RawValue} {marker : Option String} {r : Run} {a c : Address}

/-- The grid has every cell for which a formula asks in the course of evaluations. -/
theorem Reaches.find_of_asks (hgrid : Grid.ofRaw table marker = .ok s.grid)
    (h : (idle (.start s.grid s.functions s.scale)).Reaches [.evaluation] (busy r))
    (hasks : r.Asks c a) : ∃ cell, s.grid.find a = .ok cell := by
  obtain ⟨s', left', hkeeps, ⟨-, target, n, hr⟩, -⟩ := h.isOrderly hgrid isOrderly_start
  obtain rfl := hkeeps.eq (by decide)
  have hcontains := (hr.request_of_asks hasks).2.1
  obtain ⟨cell, hcell⟩ := Option.isSome_iff_exists.1 (Grid.isSome_cell?.2 hcontains)
  exact ⟨cell, by rw [Grid.find, hcell]; rfl⟩

end Moment

namespace Evaluator

open Moment

/-- Where nothing gives up and functions fail with plain faults, evaluating all cells takes steps of
evaluations only and comes to a table of the outcomes that are kept. The failures among them have
arisen in cells of the grid. -/
theorem exists_evaluateAll {s : Calculation} {table : RawValue} {marker : Option String}
    (hgrid : Grid.ofRaw table marker = .ok s.grid) (hsafe : s.NeverAborts)
    (hplain : s.functions.IsPlain) :
    let ev := start s.grid s.functions s.scale
    (idle ev).Reaches [.evaluation] (idle ev.evaluateAll.1) ∧
      ∃ values, ev.evaluateAll.2 = .ok values ∧ s.grid.Tabulates
        (fun a o => ev.evaluateAll.1.outcome? a = some o ∧
          ∀ f, o = .error f → s.grid.Contains f.origin) values := by
  intro ev
  have hstart : (idle ev).IsOrderly s fun _ => False := isOrderly_start
  have hpasses := hstart.passes_evaluateAll hgrid
  have hkept : ∀ values, ev.evaluateAll.2 = .ok values →
      List.Forall₂ (List.Forall₂ fun a o => ev.evaluateAll.1.outcome? a = some o)
        s.grid.rowAddresses values := fun values =>
    hstart.forall₂_evaluateAll (R := fun ev a o => ev.outcome? a = some o) hgrid
      (fun _ _ _ _ hadvances => hadvances.outcome?_eq)
      fun ev' a hev' ha o => hev'.outcome?_compute hgrid ha
  generalize ev.evaluateAll = x at hpasses hkept ⊢
  cases hpasses with
  | givenUp haborts => exact absurd hsafe haborts
  | @result ev' values hreaches =>
    refine ⟨hreaches, values, rfl, ?_⟩
    obtain ⟨s', left', hkeeps, horderly, -⟩ := hreaches.isOrderly hgrid hstart
    obtain rfl := hkeeps.eq (by decide)
    refine Grid.tabulates_of_forall₂ ((hkept values rfl).imp fun _ _ => List.Forall₂.imp ?_)
    refine fun a o ho => ⟨ho, ?_⟩
    -- A failure in the table is kept for its cell, so it is explained.
    rintro f rfl
    exact horderly.grid_eq ▸ (hreaches.isTraced hgrid hplain f a ho).2.contains

/-- A rectangle of texts makes a grid of its size, and evaluating all cells with the standard
functions has a result: a table with a number or a failure for each cell, which tells a cell of the
grid in which it arose. The grid has every cell that is asked for, formulas raise only faults that
are expected, and standard functions have values where they are not refused. -/
theorem exists_evaluateAll_of_texts {rows : List (List String)} {width : Nat} {scale : Int}
    (hne : rows ≠ []) (hwidth : 0 < width) (heven : ∀ row ∈ rows, row.length = width)
    (hscale : 0 ≤ scale) (outer inner : Brackets) (marker : Option String) :
    ∃ g, Grid.ofRaw (.ofTexts outer inner rows) marker = .ok g ∧
      g.height = rows.length ∧ g.width = width ∧
      let ev := start g .standard scale
      (∃ values, ev.evaluateAll.2 = .ok values ∧ g.Tabulates
        (fun _ o => ∀ f, o = .error f → ∃ a, f.error.origin = some a ∧ g.Contains a) values) ∧
      (idle ev).Reaches [.evaluation] (idle ev.evaluateAll.1) ∧
      (∀ r c a, (idle ev).Reaches [.evaluation] (busy r) → r.Asks c a →
        ∃ cell, g.find a = .ok cell) ∧
      (∀ f tree, Formula.tree f = .ok tree → ∀ room,
        (tree.program ev.setting room).RaisesOnly fun raised =>
          ∃ fault, raised = .fault fault ∧ fault.IsExpected) ∧
      Registry.standard.IsTotal := by
  obtain ⟨g, hgrid, hheight, hgwidth, -⟩ := Grid.exists_ofTexts hne hwidth heven outer inner marker
  refine ⟨g, hgrid, hheight, hgwidth, ?_⟩
  intro ev
  let s : Calculation := ⟨g, .standard, scale⟩
  have hsafe : s.NeverAborts := ⟨Registry.neverAborts_standard, hscale⟩
  obtain ⟨hreaches, values, hvalues, htabulates⟩ :=
    exists_evaluateAll (s := s) hgrid hsafe Registry.isPlain_standard
  refine ⟨⟨values, hvalues, htabulates.imp fun a o ho f hf => ?_⟩, hreaches,
    fun r c a hr => hr.find_of_asks (s := s) hgrid, fun f tree htree => ?_,
    Registry.isTotal_standard⟩
  · exact ⟨f.origin, rfl, ho.2 f hf⟩
  · exact Formula.raisesOnly_isExpected Registry.isTotal_standard hscale htree

/-- A cycle, a reference outside of the grid and a text that is no number leave a table with four
entries. -/
theorem exists_evaluateAll_of_failing :
    let rows := [["=A2+1", "=C7"], ["=SUM(A1:B1)/0", "x"]]
    rows ≠ [] ∧ (∀ row ∈ rows, row.length = 2) ∧
      ∃ g values, Grid.ofRaw (.ofTexts .square .round rows) (some "=") = .ok g ∧
        (start g .standard 28).evaluateAll.2 = .ok values ∧ values.length = 2 ∧
        ∀ row ∈ values, row.length = 2 := by
  intro rows
  have hne : rows ≠ [] := by decide
  have heven : ∀ row ∈ rows, row.length = 2 := by decide
  have hscale : (0 : Int) ≤ 28 := by decide
  obtain ⟨g, hgrid, hheight, hwidth, ⟨values, hvalues, htabulates⟩, -⟩ :=
    exists_evaluateAll_of_texts hne (by decide) heven hscale .square .round (some "=")
  exact ⟨hne, heven, g, values, hgrid, hvalues, htabulates.height.trans hheight,
    hwidth ▸ htabulates.width⟩

end Evaluator

end DecimalSheet
