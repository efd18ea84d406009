import DecimalSheet.Proofs.Evaluation.Edges
import DecimalSheet.Proofs.Evaluation.Lockstep
import DecimalSheet.Proofs.Evaluation.Stack

/-!
# Isolation

The evaluation of a cell depends only on the cells that can be reached from it, along the references
of formulas to cells inside of the grid. In two grids of the same size that are built from the same
values at these addresses, it comes to the same result, keeps the same outcomes and records the same
dependencies, and it leaves all other cells alone. This holds for all functions, cycles and failures
included, since the two evaluations go in lockstep.

## Main definitions

* `Calculation.CanReach s c a`: references lead from the cell `c` to the cell `a`

## Main results

* `Evaluator.evaluate_isolated`: evaluations in two grids that agree where references lead
-/

namespace DecimalSheet

/-- References inside of the grid lead from one cell to another. -/
def Calculation.CanReach (s : Calculation) : Address → Address → Prop :=
  Relation.ReflTransGen fun a b => s.RefersTo a b ∧ s.grid.Contains b

/-- A program that asks only for cells with a property is alike to itself. -/
theorem Program.alike_of_behaves {α : Type} {P Q : Address → Prop} {safe : Prop} {n : Nat}
    (hPQ : ∀ a, P a → Q a) {p : Program α} (h : p.Behaves P safe n) : p.Alike Eq Q Eq p := by
  induction p generalizing n with
  | done value => exact .done rfl
  | raise raised => exact .raise raised
  | ask a next ih =>
    obtain ⟨-, ha, hnext⟩ := h
    refine .ask (hPQ a ha) fun v w hvw => ?_
    subst hvw
    exact ih v (hnext v)

namespace Calculation

variable {s : Calculation} {grid' : Grid} {table table' : RawValue} {marker : Option String}
  {c : Address}

/-- The formulas of cells that can be reached ask only for such cells. -/
theorem alike_content (hproper : s.IsProper) {a : Address} (ha : s.CanReach c a) {cell : Cell}
    (hcell : s.grid.cell? a = some cell) :
    Content.Alike Eq (s.CanReach c) s.setting s.setting cell.content cell.content := by
  cases hcontent : cell.content with
  | literal value => exact .literal rfl
  | unreadable formula fault => exact .unreadable
  | formula f tree references =>
    have htree : s.tree? a = some tree := tree?_eq_some_iff.2 ⟨cell, f, references, hcell, hcontent⟩
    exact .formula (Program.alike_of_behaves
      (fun b hb => ha.tail ⟨⟨tree, htree, hb.1⟩, hb.2⟩)
      (Expr.behaves_program tree _ (hproper a tree htree)))

/-- Grids of the same size, built from the same values at all addresses that can be reached, hold
the same there. -/
theorem alike_of_source (hgrid : Grid.ofRaw table marker = .ok s.grid)
    (hgrid' : Grid.ofRaw table' marker = .ok grid') (hheight : grid'.height = s.grid.height)
    (hwidth : grid'.width = s.grid.width)
    (hsource : ∀ a, s.CanReach c a →
      (grid'.cell? a).map Cell.source = (s.grid.cell? a).map Cell.source) :
    s.Alike Eq (s.CanReach c) ⟨grid', s.functions, s.scale⟩ where
  height_eq := hheight
  width_eq := hwidth
  cell a ha := by
    rw [setting_eq_of_size hheight hwidth, Grid.cell?_eq_of_source hgrid hgrid' (hsource a ha)]
    cases hcell : s.grid.cell? a with
    | none => exact .none
    | some cell => exact .some (alike_content (isProper_of_ofRaw hgrid) ha hcell)

end Calculation

/-! ## A cell beside a cycle -/

namespace Grid

/-- The table of a cell that refers to itself and of another value. -/
def besideTable (value : RawValue) : RawValue :=
  .sequence .square [.sequence .square [.text "=A1", value]]

/-- The grid of the table `besideTable`. -/
def beside (value : RawValue) : Grid := ofEvenRows (some "=") 2 [[.text "=A1", value]] (by simp)

theorem ofRaw_besideTable (value : RawValue) :
    ofRaw (besideTable value) (some "=") = .ok (beside value) := rfl

theorem cell?_beside (value : RawValue) :
    (beside value).cell? ⟨0, 0⟩ =
      some ⟨⟨0, 0⟩, .text "=A1", .formula ⟨"=A1", some "="⟩ (.cell ⟨0, 0⟩) none⟩ := by
  have htree : (⟨"=A1", some "="⟩ : Formula).tree = .ok (.cell ⟨0, 0⟩) :=
    Formula.tree_eq_cell (by cbv) rfl
  rw [← Content.ofRaw_eq_formula rfl htree]
  rfl

end Grid

theorem Calculation.eq_of_canReach_beside {value : RawValue} {functions : Registry} {scale : Int}
    {a : Address} (h : CanReach ⟨Grid.beside value, functions, scale⟩ ⟨0, 0⟩ a) : a = ⟨0, 0⟩ := by
  induction h with
  | refl => rfl
  | tail _ hstep ih =>
    subst ih
    -- The only reference leads back to the cell itself.
    obtain ⟨⟨tree, htree, hmem⟩, -⟩ := hstep
    rw [tree?_eq_some_iff.2 ⟨_, _, _, Grid.cell?_beside value, rfl⟩] at htree
    obtain rfl := Option.some.inj htree
    simpa using hmem

namespace Evaluator

variable {ev ev' : Evaluator} {s s' : Calculation} {V : Decimal → Decimal → Prop}
  {P : Address → Prop} {a : Address}

theorem Alike.status_eq (h : ev.Alike Eq P s s' ev') (a : Address) :
    ev'.status[a]? = ev.status[a]? := by
  have hstatus := h.status a
  generalize ev.status[a]? = st at hstatus ⊢
  generalize ev'.status[a]? = st' at hstatus ⊢
  cases hstatus with
  | none => rfl
  | some hst =>
    cases hst with
    | inProgress => rfl
    | finished ho => rw [ho.eq_of_forall fun _ _ => Eq.symm]

/-- Equal numbers: the same is kept for every cell. -/
theorem Alike.kept_eq (h : ev.Alike Eq P s s' ev') (a : Address) :
    ev'.state a = ev.state a ∧ ev'.outcome? a = ev.outcome? a := by
  rw [state, state, outcome?, outcome?, h.status_eq]
  exact ⟨rfl, rfl⟩

/-- A cell that does not count is left alone. -/
theorem Alike.isUntouched (h : ev.Alike V P s s' ev') (ha : ¬P a) :
    ev.state a = .notStarted ∧ ev.outcome? a = none ∧ ev.dependencies.dependantsOf a = [] ∧
      ev.dependencies.precedents a = [] := by
  have hstatus := h.status_eq_none a ha
  refine ⟨by rw [state, hstatus]; rfl, by rw [outcome?, hstatus], ?_, ?_⟩
  · exact List.eq_nil_iff_forall_not_mem.2 fun b hb => ha (h.confined a b hb).1
  · refine List.eq_nil_iff_forall_not_mem.2 fun b hb => ha ?_
    exact (h.confined b a (Dependencies.mem_precedents.1 hb)).2

/-- If two grids of the same size are built from the same values at all addresses that can be
reached from a cell, then its evaluation comes to the same result in both, keeps the same states and
outcomes, and records the same dependencies. All other cells are left alone. -/
theorem evaluate_isolated {table table' : RawValue} {marker : Option String} {s : Calculation}
    {grid' : Grid} {c : Address} (hgrid : Grid.ofRaw table marker = .ok s.grid)
    (hgrid' : Grid.ofRaw table' marker = .ok grid') (hheight : grid'.height = s.grid.height)
    (hwidth : grid'.width = s.grid.width)
    (hsource : ∀ a, s.CanReach c a →
      (grid'.cell? a).map Cell.source = (s.grid.cell? a).map Cell.source) :
    let x := (start s.grid s.functions s.scale).evaluate c
    let x' := (start grid' s.functions s.scale).evaluate c
    x'.2 = x.2 ∧ x'.1.dependencies = x.1.dependencies ∧
      (∀ a, x'.1.state a = x.1.state a ∧ x'.1.outcome? a = x.1.outcome? a) ∧
        ∀ a, ¬s.CanReach c a → x.1.state a = .notStarted ∧ x.1.outcome? a = none ∧
          x.1.dependencies.dependantsOf a = [] ∧ x.1.dependencies.precedents a = [] := by
  intro x x'
  have halike := alike_start (Calculation.alike_of_source hgrid hgrid' hheight hwidth hsource)
  obtain ⟨hev, hresult⟩ := halike.evaluate .refl
  refine ⟨?_, hev.dependencies_eq, hev.kept_eq, fun a => hev.isUntouched⟩
  exact hresult.eq_of_forall fun o o' ho => ho.eq_of_forall fun _ _ => Eq.symm

/-- What stands beside a cell that refers to itself plays no part when this cell is evaluated. -/
theorem evaluate_isolated_beside :
    let x := (start (Grid.beside (.text "1")) .standard 28).evaluate ⟨0, 0⟩
    let x' := (start (Grid.beside (.text "=A1")) .standard 28).evaluate ⟨0, 0⟩
    x'.2 = x.2 ∧ x'.1.dependencies = x.1.dependencies ∧ x.1.state ⟨0, 1⟩ = .notStarted := by
  have hreach : ∀ a, Calculation.CanReach ⟨Grid.beside (.text "1"), .standard, 28⟩ ⟨0, 0⟩ a →
      a = ⟨0, 0⟩ := fun a => Calculation.eq_of_canReach_beside
  obtain ⟨hresult, hdependencies, -, huntouched⟩ := evaluate_isolated
    (s := ⟨Grid.beside (.text "1"), .standard, 28⟩) (c := ⟨0, 0⟩)
    (Grid.ofRaw_besideTable (.text "1")) (Grid.ofRaw_besideTable (.text "=A1")) rfl rfl
    fun a ha => by rw [hreach a ha, Grid.cell?_beside, Grid.cell?_beside]
  refine ⟨hresult, hdependencies, (huntouched ⟨0, 1⟩ fun ha => ?_).1⟩
  exact absurd (hreach _ ha) (by decide)

end Evaluator

end DecimalSheet
