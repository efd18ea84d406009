import DecimalSheet.Proofs.Formula.Parsing

/-!
# Proper trees

Trees that were put together by hand may hold operators that are none and values that are no
expressions. The trees of formulas hold neither.

## Main definitions

* `Expr.IsProper`: there is nothing in the tree that no formula has

## Main results

* `Formula.isProper_of_tree`: the tree of a formula is proper
-/

namespace DecimalSheet

namespace Expr

mutual

/-- The tree has neither an operator nor a node that no formula has. -/
def IsProper : Expr → Prop
  | binary op left right => (∀ symbol, op ≠ .unknown symbol) ∧ left.IsProper ∧ right.IsProper
  | negate operand => operand.IsProper
  | call _ args => AreProper args
  | foreign _ => False
  | _ => True

/-- All of the trees are proper. -/
def AreProper : List Expr → Prop
  | [] => True
  | e :: es => e.IsProper ∧ AreProper es

end

theorem ne_unknown_of_sumOperator? {t : Token} {op : Operator} (h : sumOperator? t = some op)
    (symbol : String) : op ≠ .unknown symbol := by
  rintro rfl
  cases t <;> cases h

theorem ne_unknown_of_productOperator? {t : Token} {op : Operator}
    (h : productOperator? t = some op) (symbol : String) : op ≠ .unknown symbol := by
  rintro rfl
  cases t <;> cases h

end Expr

open DecimalSheet.Expr

mutual

theorem IsSum.isProper {n : Nat} {ts : List Token} {e : Expr} (h : IsSum n ts e) : e.IsProper :=
  match h with
  | .product h => h.isProper
  | .operator hleft hop hright =>
    ⟨ne_unknown_of_sumOperator? hop, hleft.isProper, hright.isProper⟩

theorem IsProduct.isProper {n : Nat} {ts : List Token} {e : Expr} (h : IsProduct n ts e) :
    e.IsProper :=
  match h with
  | .factor h => h.isProper
  | .operator hleft hop hright =>
    ⟨ne_unknown_of_productOperator? hop, hleft.isProper, hright.isProper⟩

theorem IsFactor.isProper {n : Nat} {ts : List Token} {e : Expr} (h : IsFactor n ts e) :
    e.IsProper :=
  match h with
  | .atom h => h.isProper
  | .negate h => h.isProper

theorem IsAtom.isProper {n : Nat} {ts : List Token} {e : Expr} (h : IsAtom n ts e) : e.IsProper :=
  match h with
  | .number | .cell _ | .emptyCall _ => trivial
  | .group h => h.isProper
  | .call _ h => h.areProper

theorem IsArguments.areProper {n : Nat} {ts : List Token} {es : List Expr}
    (h : IsArguments n ts es) : AreProper es :=
  match h with
  | .last h => ⟨h.isProper, trivial⟩
  | .more h hmore => ⟨h.isProper, hmore.areProper⟩

theorem IsArgument.isProper {n : Nat} {ts : List Token} {e : Expr} (h : IsArgument n ts e) :
    e.IsProper :=
  match h with
  | .range _ _ => trivial
  | .sum h => h.isProper

end

/-- The tree of a formula is proper. -/
theorem Formula.isProper_of_tree {f : Formula} {e : Expr} (h : f.tree = .ok e) : e.IsProper := by
  cases htokens : f.tokens with
  | error fault => simp [Formula.tree, htokens] at h
  | ok ts =>
    obtain ⟨n, -, hsum⟩ := parse_eq_ok_iff.1 ((Formula.tree_eq_ok_iff htokens).1 h)
    exact hsum.isProper

end DecimalSheet
