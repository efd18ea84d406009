import DecimalSheet.Proofs.Evaluation.Recursion
import Mathlib.Logic.Relation

/-!
# Derivations of values

Which cells have values, said without an order of evaluation: a cell has a value if there is a
finite derivation of it from the values of the cells that it mentions. Evaluation by recursion
finds exactly the values that can be derived. No cycle can be reached from a cell with a value, and
from where no cycle can be reached the path is of no importance.

## Main definitions

* `Calculation.Derivable s a v`: there is a derivation of the value `v` of the cell `a`
* `Calculation.IsGrounded s a`: every way from the cell `a` to mentioned cells comes to an end

## Main results

* `Calculation.valueAlong_eq_ok_iff`: the values found by recursion are those that can be derived
* `Calculation.valueAlong_nil_eq`: where no cycle can be reached, the value of a cell is that of its
  expression for the values of the cells that it mentions
* `Calculation.isGrounded_of_forall_not_transGen`: without a cycle every way comes to an end
-/

namespace DecimalSheet.Calculation

variable {s : Calculation} {path : List Address} {a b : Address} {v : Decimal} {tree : Expr}

/-! ## Cells and paths -/

theorem tree?_eq_some_iff :
    s.tree? a = some tree ↔
      ∃ c f references, s.grid.cell? a = some c ∧ c.content = .formula f tree references := by
  unfold tree? Cell.tree?
  rw [Option.bind_eq_some_iff]
  constructor
  · rintro ⟨c, hc, h⟩
    split at h
    · rename_i hcontent
      obtain rfl := Option.some.inj h
      exact ⟨c, _, _, hc, hcontent⟩
    · cases h
  · rintro ⟨c, f, references, hc, hcontent⟩
    exact ⟨c, hc, by rw [hcontent]⟩

theorem contains_of_tree? (h : s.tree? a = some tree) : s.grid.Contains a := by
  obtain ⟨c, f, references, hc, -⟩ := tree?_eq_some_iff.1 h
  exact Grid.contains_of_cell? hc

theorem valueAlong_of_not_contains (h : ¬s.grid.Contains a) :
    s.valueAlong path a = .error (.error (.ofFault (.outsideGrid a))) := by
  have hcell : s.grid.cell? a = none := by
    rwa [← Option.not_isSome_iff_eq_none, Grid.isSome_cell?]
  unfold valueAlong
  split
  · rfl
  · simp_all

theorem valueAlong_of_mem (ha : s.grid.Contains a) (hpath : a ∈ path) :
    s.valueAlong path a = .error (.error (.ofFault (.circular a (loop path a)))) := by
  obtain ⟨c, hc⟩ := Grid.exists_cell?_of_contains ha
  unfold valueAlong
  split
  · simp_all
  · rw [dif_pos hpath]

theorem valueAlong_of_cell? {c : Cell} (hcell : s.grid.cell? a = some c) (hpath : a ∉ path) :
    s.valueAlong path a =
      match c.content with
      | .literal value => .ok value
      | .unreadable _ fault => .error (.error ((CellError.ofFault fault).tag a))
      | .formula _ tree _ =>
        (tree.valueBy s (s.valueAlong (a :: path))).mapError (Stop.tag a) := by
  rw [valueAlong]
  split
  · simp_all
  · rename_i c' hcell'
    obtain rfl := Option.some.inj (hcell.symm.trans hcell')
    exact dif_neg hpath

theorem valueAlong_of_tree? (htree : s.tree? a = some tree) (hpath : a ∉ path) :
    s.valueAlong path a =
      (tree.valueBy s (s.valueAlong (a :: path))).mapError (Stop.tag a) := by
  obtain ⟨c, f, references, hc, hcontent⟩ := tree?_eq_some_iff.1 htree
  rw [valueAlong_of_cell? hc hpath, hcontent]

/-- The path is of no importance for a cell without a formula. -/
theorem valueAlong_eq_nil_of_tree? (htree : s.tree? a = none) (hpath : a ∉ path) :
    s.valueAlong path a = s.valueAlong [] a := by
  by_cases ha : s.grid.Contains a
  · obtain ⟨c, hc⟩ := Grid.exists_cell?_of_contains ha
    rw [valueAlong_of_cell? hc hpath, valueAlong_of_cell? hc List.not_mem_nil]
    split
    · rfl
    · rfl
    · -- there is no formula
      rename_i hcontent
      rw [tree?_eq_some_iff.2 ⟨c, _, _, hc, hcontent⟩] at htree
      cases htree
  · rw [valueAlong_of_not_contains ha, valueAlong_of_not_contains ha]

/-! ## Derivations -/

/-- The value of a cell can be derived: it is the literal in the cell, or the value of its
expression for the values of the mentioned cells, all of which lie inside of the grid and can be
derived. -/
inductive Derivable (s : Calculation) : Address → Decimal → Prop
  | literal {a : Address} {c : Cell} {v : Decimal} (hcell : s.grid.cell? a = some c)
      (hcontent : c.content = .literal v) : Derivable s a v
  | formula {a : Address} {tree : Expr} {v : Decimal} (values : Address → Decimal)
      (htree : s.tree? a = some tree)
      (hcontains : ∀ b ∈ tree.mentions, s.grid.Contains b)
      (hvalues : ∀ b ∈ tree.mentions, Derivable s b (values b))
      (hvalue : tree.valueBy s (fun b => .ok (values b)) = .ok v) : Derivable s a v

/-- Every way from the cell along mentioned cells comes to an end. -/
def IsGrounded (s : Calculation) : Address → Prop := Acc fun b a => s.RefersTo a b

theorem derivable_of_valueAlong_eq_ok {path : List Address} {a : Address} {v : Decimal}
    (h : s.valueAlong path a = .ok v) : s.Derivable a v := by
  by_cases ha : s.grid.Contains a
  · by_cases hpath : a ∈ path
    · rw [valueAlong_of_mem ha hpath] at h
      cases h
    · obtain ⟨c, hc⟩ := Grid.exists_cell?_of_contains ha
      rw [valueAlong_of_cell? hc hpath] at h
      split at h
      · rename_i hcontent
        obtain rfl := Except.ok.inj h
        exact .literal hc hcontent
      · cases h
      · -- A formula: every mentioned cell has a value, on the path that is longer by `a`.
        rename_i f tree references hcontent
        rw [mapError_eq_ok_iff] at h
        have hmentions := Expr.exists_of_valueBy_eq_ok tree v h
        refine .formula (fun b => (s.valueAlong (a :: path) b).toOption.getD .zero)
          (tree?_eq_some_iff.2 ⟨c, f, references, hc, hcontent⟩) ?_ ?_ ?_
        · intro b hb
          obtain ⟨w, hw⟩ := hmentions b hb
          by_contra hout
          rw [valueAlong_of_not_contains hout] at hw
          cases hw
        · intro b hb
          obtain ⟨w, hw⟩ := hmentions b hb
          rw [hw]
          exact derivable_of_valueAlong_eq_ok hw
        · rw [← h]
          refine Expr.valueBy_congr tree fun b hb => ?_
          obtain ⟨w, hw⟩ := hmentions b hb
          rw [hw]
          rfl
  · rw [valueAlong_of_not_contains ha] at h
    cases h
termination_by (s.grid.addresses.filter (· ∉ path)).length
decreasing_by exact length_filter_lt ha hpath

theorem refersTo_of_tree? {c : Address} (htree : s.tree? a = some tree) :
    s.RefersTo a c ↔ c ∈ tree.mentions := by
  constructor
  · rintro ⟨tree', htree', hc⟩
    obtain rfl := Option.some.inj (htree.symm.trans htree')
    exact hc
  · exact fun hc => ⟨tree, htree, hc⟩

/-- From a cell with a value no cycle can be reached. -/
theorem Derivable.isGrounded (h : s.Derivable a v) : s.IsGrounded a := by
  induction h with
  | literal hcell hcontent =>
    -- A number mentions no cell.
    refine ⟨_, ?_⟩
    rintro b ⟨tree, htree, -⟩
    obtain ⟨c', f, references, hcell', hcontent'⟩ := tree?_eq_some_iff.1 htree
    obtain rfl := Option.some.inj (hcell.symm.trans hcell')
    rw [hcontent] at hcontent'
    cases hcontent'
  | formula values htree hcontains hvalues hvalue ih =>
    exact ⟨_, fun b hb => ih b ((refersTo_of_tree? htree).1 hb)⟩

theorem IsGrounded.of_refersTo (h : s.IsGrounded a) (hb : s.RefersTo a b) : s.IsGrounded b :=
  h.inv hb

theorem IsGrounded.not_transGen (h : s.IsGrounded a) : ¬Relation.TransGen s.RefersTo a a := by
  induction h with
  | intro a _ ih =>
    -- A cycle through `a` goes through a cell that `a` mentions.
    intro hcycle
    obtain ⟨b, hb, hback⟩ := Relation.TransGen.head'_iff.1 hcycle
    exact ih b hb (Relation.TransGen.tail' hback hb)

/-- Where no cycle can be reached, only a path that can be reached matters. -/
theorem IsGrounded.valueAlong_eq_nil (h : s.IsGrounded a)
    (hpath : ∀ b, Relation.ReflTransGen s.RefersTo a b → b ∉ path) :
    s.valueAlong path a = s.valueAlong [] a := by
  induction h generalizing path with
  | intro a hacc ih =>
    have hgrounded : s.IsGrounded a := ⟨a, hacc⟩
    cases htree : s.tree? a with
    | none => exact valueAlong_eq_nil_of_tree? htree (hpath a .refl)
    | some tree =>
      rw [valueAlong_of_tree? htree (hpath a .refl), valueAlong_of_tree? htree List.not_mem_nil]
      refine congrArg _ (Expr.valueBy_congr tree fun b hb => ?_)
      have hab : s.RefersTo a b := ⟨tree, htree, hb⟩
      -- Behind a mentioned cell `a` does not occur again, so it may be put on any path.
      have hne : ∀ c, Relation.ReflTransGen s.RefersTo b c → c ≠ a := by
        rintro c hc rfl
        exact hgrounded.not_transGen (Relation.TransGen.head' hab hc)
      have hlonger : ∀ {l : List Address},
          (∀ c, Relation.ReflTransGen s.RefersTo a c → c ∉ l) →
            s.valueAlong (a :: l) b = s.valueAlong [] b := fun hl =>
        ih b hab fun c hc => List.not_mem_cons_of_ne_of_not_mem (hne c hc) (hl c (.head hab hc))
      rw [hlonger hpath, hlonger fun _ _ => List.not_mem_nil]

/-- Where no cycle can be reached, the value of a cell with a formula is the value of its
expression for the values of the mentioned cells. -/
theorem IsGrounded.valueAlong_nil_eq (h : s.IsGrounded a) (htree : s.tree? a = some tree) :
    s.valueAlong [] a = (tree.valueBy s (s.valueAlong [])).mapError (Stop.tag a) := by
  rw [valueAlong_of_tree? htree List.not_mem_nil]
  refine congrArg _ (Expr.valueBy_congr tree fun b hb => ?_)
  have hab : s.RefersTo a b := ⟨tree, htree, hb⟩
  refine (h.of_refersTo hab).valueAlong_eq_nil ?_
  rintro c hc hmem
  obtain rfl := List.mem_singleton.1 hmem
  exact h.not_transGen (Relation.TransGen.head' hab hc)

/-- The values that evaluation by recursion finds are those that can be derived. -/
theorem valueAlong_eq_ok_iff : s.valueAlong [] a = .ok v ↔ s.Derivable a v := by
  refine ⟨derivable_of_valueAlong_eq_ok, fun h => ?_⟩
  -- Induction on the derivation: the mentioned cells have their values on the empty path.
  induction h with
  | literal hcell hcontent => rw [valueAlong_of_cell? hcell List.not_mem_nil, hcontent]
  | formula values htree hcontains hvalues hvalue ih =>
    have hgrounded := (Derivable.formula values htree hcontains hvalues hvalue).isGrounded
    rw [hgrounded.valueAlong_nil_eq htree, mapError_eq_ok_iff, ← hvalue]
    exact Expr.valueBy_congr _ ih

/-- A cell has a value as soon as its expression has one for the values of the mentioned cells. -/
theorem derivable_of_valueBy_eq_ok (htree : s.tree? a = some tree)
    (h : tree.valueBy s (s.valueAlong []) = .ok v) : s.Derivable a v := by
  have hgrounded : s.IsGrounded a := by
    refine ⟨a, fun b hb => ?_⟩
    obtain ⟨w, hw⟩ := Expr.exists_of_valueBy_eq_ok tree v h b ((refersTo_of_tree? htree).1 hb)
    exact (derivable_of_valueAlong_eq_ok hw).isGrounded
  rw [← valueAlong_eq_ok_iff, hgrounded.valueAlong_nil_eq htree, h]
  rfl

theorem Derivable.valueBy_eq_ok (h : s.Derivable a v) (htree : s.tree? a = some tree) :
    tree.valueBy s (s.valueAlong []) = .ok v := by
  have hvalue := valueAlong_eq_ok_iff.2 h
  rwa [h.isGrounded.valueAlong_nil_eq htree, mapError_eq_ok_iff] at hvalue

/-- From a cell with a value only cells with values can be reached. -/
theorem Derivable.of_transGen (h : s.Derivable a v) (hab : Relation.TransGen s.RefersTo a b) :
    ∃ w, s.Derivable b w := by
  have hstep : ∀ {c d w}, s.Derivable c w → s.RefersTo c d → ∃ w, s.Derivable d w := by
    rintro c d w hc ⟨tree, htree, hd⟩
    obtain ⟨w, hw⟩ := Expr.exists_of_valueBy_eq_ok tree _ (hc.valueBy_eq_ok htree) d hd
    exact ⟨w, valueAlong_eq_ok_iff.1 hw⟩
  induction hab with
  | single hab => exact hstep h hab
  | tail _ hbc ih =>
    obtain ⟨w, hw⟩ := ih
    exact hstep hw hbc

/-! ## Cycles -/

/-- A way from cell to mentioned cell that goes on forever would come to a cell for the second
time, since only cells inside of the grid mention others. -/
theorem isGrounded_of_forall_not_transGen {path : List Address} {a : Address}
    (h : ∀ b, Relation.ReflTransGen s.RefersTo a b → ¬Relation.TransGen s.RefersTo b b)
    (hpath : ∀ b ∈ path, Relation.TransGen s.RefersTo b a) : s.IsGrounded a := by
  refine ⟨a, fun b hab => ?_⟩
  have ⟨tree, htree, _⟩ := hab
  -- The path leads to `a`, so `a` on the path would close a cycle.
  have ha : a ∉ path := fun ha => h a .refl (hpath a ha)
  have hlonger : ∀ c ∈ a :: path, Relation.TransGen s.RefersTo c b :=
    List.forall_mem_cons.2 ⟨.single hab, fun c hc => (hpath c hc).tail hab⟩
  exact isGrounded_of_forall_not_transGen (fun c hc => h c (.head hab hc)) hlonger
termination_by (s.grid.addresses.filter (· ∉ path)).length
decreasing_by exact length_filter_lt (contains_of_tree? htree) ha

end DecimalSheet.Calculation
