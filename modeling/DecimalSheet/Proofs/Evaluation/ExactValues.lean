import DecimalSheet.Proofs.Evaluation.Answers
import DecimalSheet.Proofs.Evaluation.RationalValues
import DecimalSheet.Proofs.Evaluation.Trails

/-!
# Exact values

With the standard functions, evaluation is arithmetic over the rational numbers. Each number that an
evaluator finds stands for the value of its formula over the rational numbers, computed from the
numbers of the cells to which the formula refers. Nothing is rounded but quotients and means, each
of them once. So evaluations do not depend on the forms of numbers: if two grids differ only in the
forms of the numbers in their cells and formulas, all results are the same up to the forms of
numbers, errors included.

## Main results

* `Evaluator.Recorded.rational?`: a number that is kept is the value over the rational numbers
* `Evaluator.exact_values`: evaluations over the rational numbers
-/

namespace DecimalSheet

variable {places : Nat}

/-! ## A third -/

namespace Grid

/-- The tree of a third of the number in the second cell of a row. -/
def thirdTree : Expr := .binary .div (.cell ⟨0, 1⟩) (.number (.ofNat 3))

/-- The table of a third of a number and of the number. -/
def thirdTable (text : String) : RawValue :=
  .sequence .square [.sequence .square [.text "=B1/3", .text text]]

/-- The grid of the table `thirdTable`. -/
def third (text : String) (v : Decimal) : Grid := ⟨1, 2, #v[#v[
  ⟨⟨0, 0⟩, .text "=B1/3", .formula ⟨"=B1/3", some "="⟩ thirdTree none⟩,
  ⟨⟨0, 1⟩, .text text, .literal v⟩]]⟩

theorem tree_thirdTree : (⟨"=B1/3", some "="⟩ : Formula).tree = .ok thirdTree := by
  have hts : (⟨"=B1/3", some "="⟩ : Formula).tokens =
      .ok [⟨.reference "B1", 0⟩, ⟨.divide, 2⟩, ⟨.number (.ofNat 3), 3⟩] := by cbv
  have hcell : IsFactor 0 [.reference "B1"] (.cell ⟨0, 1⟩) := .atom (.cell rfl)
  have hthree : IsFactor 0 [.number (.ofNat 3)] (.number (.ofNat 3)) := .atom .number
  have hquotient := (IsProduct.factor hcell).operator (t := .divide) rfl hthree
  exact (Formula.tree_eq_ok_iff hts).2 (parse_eq_ok_iff.2 ⟨_, by decide, .product hquotient⟩)

theorem ofRaw_thirdTable {text : String} {v : Decimal}
    (hmarked : Formula.isMarked (some "=") text = false)
    (hliteral : Decimal.ofLiteral? text = some v) :
    ofRaw (thirdTable text) (some "=") = .ok (third text v) := by
  rw [third, ← Content.ofRaw_eq_formula rfl tree_thirdTree,
    ← Content.ofRaw_eq_literal hmarked hliteral]
  rfl

/-- Thirds of numbers with the same value. -/
theorem agrees_third {text text' : String} {v w : Decimal} {a : Address} {cell cell' : Cell}
    (h : v.SameValue w) (hcell : (third text v).cell? a = some cell)
    (hcell' : (third text' w).cell? a = some cell') :
    cell.content.Agrees cell'.content ∨ cell'.source = cell.source := by
  obtain ⟨row, col⟩ := a
  obtain ⟨hrow, hcol⟩ := isSome_cell?.1 (Option.isSome_of_eq_some hcell)
  obtain rfl : row = 0 := Nat.lt_one_iff.1 hrow
  replace hcol : col < 2 := hcol
  -- The first cells are built from the same value, and the second ones hold the same number.
  obtain rfl | rfl : col = 0 ∨ col = 1 := by omega
  · obtain rfl := Option.some.inj hcell
    obtain rfl := Option.some.inj hcell'
    exact .inr rfl
  · obtain rfl := Option.some.inj hcell
    obtain rfl := Option.some.inj hcell'
    exact .inl (.literal h)

end Grid

namespace Evaluator

variable {ev : Evaluator} {denies : Failure → Address → Prop} {c : Address} {v : Decimal}

/-- A number that is kept for a cell is the value of what the cell holds over the rational
numbers. -/
theorem Recorded.rational? (hs : ev.setting.IsExact places) (h : ev.Recorded denies c)
    (hv : ev.number? c = some v) :
    ∃ cell, ev.grid.cell? c = some cell ∧
      cell.content.rational? places (rationals ev.number?) = some v.toRat := by
  have hkept := outcome?_eq_some_iff.1 (number?_eq_some_iff.1 hv)
  cases h with
  | unasked h => cases hkept.symm.trans h
  | inProgress _ h | raised _ h | denied _ h => cases hkept.symm.trans h
  | @held cell o hcell hholds h =>
    refine ⟨cell, hcell, ?_⟩
    cases hkept.symm.trans h
    cases hcontent : cell.content with
    | literal w =>
      rw [hcontent] at hholds
      cases hholds
      rfl
    | formula | unreadable =>
      rw [hcontent] at hholds
      cases hholds
  | @done tree w htree h _ _ hrest =>
    cases hkept.symm.trans h
    obtain ⟨cell, f, references, hcell, hcontent⟩ := Calculation.tree?_eq_some_iff.1 htree
    refine ⟨cell, hcell, ?_⟩
    rw [hcontent]
    exact Expr.rational?_of_rest hs tree _ v hrest

/-- With the standard functions, numbers in answers are kept, and each number that is kept is the
value of its formula over the rational numbers, computed from the numbers that are kept. A division
fails exactly if the divisor is zero. In grids of the same size whose cells hold the same up to the
forms of numbers, all answers are the same up to the forms of numbers. -/
theorem exact_values {table : RawValue} {marker : Option String} {grid : Grid}
    (hgrid : Grid.ofRaw table marker = .ok grid) (places : Nat) :
    let s : Calculation := ⟨grid, .standard, places⟩
    let ev := start grid .standard places
    (∀ calls call c v, (ev.after calls).Returns call c (.ok v) →
      (ev.after (calls ++ [call])).number? c = some v) ∧
      (∀ calls c v, (ev.after calls).number? c = some v →
        ∃ cell, grid.cell? c = some cell ∧
          cell.content.rational? places (rationals (ev.after calls).number?) = some v.toRat) ∧
        (∀ (known : Address → Option Decimal) left right room a b,
          (Expr.program s.setting room left).rest known = .done a →
            (Expr.program s.setting room right).rest known = .done b →
              (((Expr.binary .div left right).program s.setting (room + 1)).rest known =
                .raise (.fault .divisionByZero) ↔ b.toRat = 0)) ∧
          ∀ table' marker' grid', Grid.ofRaw table' marker' = .ok grid' →
            grid'.height = grid.height → grid'.width = grid.width →
              (∀ a cell cell', grid.cell? a = some cell → grid'.cell? a = some cell' →
                cell.content.Agrees cell'.content ∨
                  marker' = marker ∧ cell'.source = cell.source) →
                ∀ calls call, Matches (List.Forall₂ (List.Forall₂ (Matches Decimal.SameValue)))
                  ((ev.after calls).answer call).2
                  (((start grid' .standard places).after calls).answer call).2 := by
  intro s ev
  have hexact : s.setting.IsExact places := Calculation.isExact_setting grid places
  refine ⟨fun calls call c v hreturns => ?_, fun calls c v hv => ?_, ?_, ?_⟩
  · obtain ⟨left, horderly, -⟩ := Moment.exists_isTracked_after (s := s) hgrid calls
    rw [after, List.foldl_append]
    exact horderly.number?_of_returns hgrid hreturns
  · obtain ⟨left, ⟨hs, -⟩, hrecorded⟩ := Moment.exists_isTracked_after (s := s) hgrid calls
    have hsetting : (ev.after calls).setting.IsExact places := by
      rw [setting_eq, show (ev.after calls).calculation = s from hs]
      exact hexact
    rw [← show (ev.after calls).grid = grid from congrArg Calculation.grid hs]
    exact (hrecorded c).rational? hsetting hv
  · exact fun known left right room a b ha hb => Expr.rest_division hexact ha hb
  · intro table' marker' grid' hgrid' hheight hwidth hcells calls call
    have halike : s.Alike Decimal.SameValue (fun _ => True) ⟨grid', .standard, places⟩ :=
      Calculation.alike_of_agrees hgrid hgrid' hheight hwidth hcells
    exact (((alike_start halike).after (fun _ => trivial) calls).answer (fun _ => trivial)
      call).result

/-- A third of one is rounded to the places after the point, and a third of a number with the same
value is the same number. -/
theorem exact_values_third :
    let ev := start (Grid.third "1" .one) .standard 2
    let ev' := start (Grid.third "1.00" ⟨false, 100, -2⟩) .standard 2
    (∃ v, (ev.after [.all]).number? ⟨0, 0⟩ = some v ∧ v.toRat = roundTo 2 (1 / 3)) ∧
      Matches (List.Forall₂ (List.Forall₂ (Matches Decimal.SameValue))) (ev.answer .all).2
        (ev'.answer .all).2 := by
  intro ev ev'
  have hgrid : Grid.ofRaw (Grid.thirdTable "1") (some "=") = .ok (Grid.third "1" .one) :=
    Grid.ofRaw_thirdTable (by decide) (by decide)
  have hgrid' : Grid.ofRaw (Grid.thirdTable "1.00") (some "=") =
      .ok (Grid.third "1.00" ⟨false, 100, -2⟩) :=
    Grid.ofRaw_thirdTable (by decide) (by decide)
  obtain ⟨-, hexact, -, halike⟩ := exact_values hgrid 2
  refine ⟨?_, ?_⟩
  · have hthird : (ev.after [.all]).number? ⟨0, 0⟩ = some ⟨false, 33, -2⟩ := by decide +kernel
    have hone : (ev.after [.all]).number? ⟨0, 1⟩ = some .one := by decide +kernel
    obtain ⟨cell, hcell, hvalue⟩ := hexact [.all] _ _ hthird
    obtain rfl := Option.some.inj hcell
    have hcalls : rationals (ev.after [.all]).number? ⟨0, 1⟩ = some 1 := by
      rw [rationals, hone, Option.map_some, Decimal.toRat_one]
    have hquotient : Operator.onRationals 2 .div 1 (Decimal.ofNat 3).toRat =
        .ok (roundTo 2 (1 / 3)) := by
      rw [Decimal.toRat_ofNat, Operator.onRationals, if_neg (by norm_num), Nat.cast_ofNat]
    refine ⟨_, hthird, Option.some.inj (hvalue.symm.trans ?_)⟩
    show (do
      let x ← rationals (ev.after [.all]).number? ⟨0, 1⟩
      (Operator.onRationals 2 .div x (Decimal.ofNat 3).toRat).toOption) = _
    rw [hcalls]
    exact congrArg Except.toOption hquotient
  · refine halike _ _ _ hgrid' rfl rfl (fun a cell cell' hcell hcell' => ?_) [] .all
    exact (Grid.agrees_third (by decide) hcell hcell').imp_right fun hsource => ⟨rfl, hsource⟩

end Evaluator

end DecimalSheet
