import DecimalSheet.Formula.Print
import DecimalSheet.Proofs.Formula.Proper
import DecimalSheet.Proofs.Formula.Scanning
import DecimalSheet.Proofs.Text.LowerCase

/-!
# Legible trees

A tree that has been read from the tokens of a text can be written so that it is read again: its
numbers are those of literals, the rows of its addresses are short enough, the names of its
functions are names in lower case, and its ranges stand as arguments only. Parentheses are written
only where an operand needs them, and there the text from which the tree was read has them too, so
that writing does not take up more room.

## Main definitions

* `Expr.IsOperand`, `Expr.IsLegible`: the form of the trees that are read
* `Expr.nesting outer`: the room that a tree takes up as an operand of the level `outer`

## Main results

* `IsSum.isLegible`: a tree that is read from the tokens of a text is legible
* `IsSum.nesting_le`: a tree does not take up more room than the derivation from which it was read
-/

namespace DecimalSheet

namespace Expr

/-- The tree may stand as an operand. -/
def IsOperand : Expr → Prop
  | range _ => False
  | _ => True

mutual

/-- The tree can be written so that it is read again. -/
def IsLegible : Expr → Prop
  | number value => value.IsLiteral
  | cell a => a.IsReadable
  | range r => r.start.IsReadable ∧ r.stop.IsReadable
  | binary op left right =>
    (∀ symbol, op ≠ .unknown symbol) ∧
      (left.IsOperand ∧ left.IsLegible) ∧ right.IsOperand ∧ right.IsLegible
  | negate operand => operand.IsOperand ∧ operand.IsLegible
  | call name args => Token.IsName name.toList ∧ Text.lower name = name ∧ AreLegible args
  | foreign _ => False

/-- Each of the trees can be written so that it is read again. -/
def AreLegible : List Expr → Prop
  | [] => True
  | e :: es => e.IsLegible ∧ AreLegible es

end

theorem lower_of_functionName? {t : Token} {name : String} (h : functionName? t = some name) :
    Text.lower name = name := by
  cases t with
  | name text | reference text =>
    obtain rfl := Option.some.inj h
    exact Text.lower_lower text
  | _ => cases h

theorem isName_of_functionName? {t : Token} {name : String} (ht : t.IsScanned)
    (h : functionName? t = some name) :
    Token.IsName name.toList ∧ Text.lower name = name := by
  refine ⟨?_, lower_of_functionName? h⟩
  cases t with
  | name text | reference text =>
    obtain rfl := Option.some.inj h
    exact Token.IsName.lower ht
  | _ => cases h

theorem level_of_sumOperator? {t : Token} {op : Operator} (h : sumOperator? t = some op) :
    op.level = 1 := by
  cases t <;> cases h <;> rfl

theorem level_of_productOperator? {t : Token} {op : Operator} (h : productOperator? t = some op) :
    op.level = 2 := by
  cases t <;> cases h <;> rfl

end Expr

open DecimalSheet.Expr

/-! ## What is read is legible -/

mutual

theorem IsSum.isLegible {n : Nat} {ts : List Token} {e : Expr} (h : IsSum n ts e) :
    (∀ t ∈ ts, t.IsScanned) → e.IsOperand ∧ e.IsLegible :=
  match h with
  | .product h => h.isLegible
  | .operator hleft hop hright => fun hts => by
    obtain ⟨hts, hus⟩ := List.forall_mem_append.1 hts
    exact ⟨trivial, ne_unknown_of_sumOperator? hop, hleft.isLegible hts,
      hright.isLegible (List.forall_mem_cons.1 hus).2⟩

theorem IsProduct.isLegible {n : Nat} {ts : List Token} {e : Expr} (h : IsProduct n ts e) :
    (∀ t ∈ ts, t.IsScanned) → e.IsOperand ∧ e.IsLegible :=
  match h with
  | .factor h => h.isLegible
  | .operator hleft hop hright => fun hts => by
    obtain ⟨hts, hus⟩ := List.forall_mem_append.1 hts
    exact ⟨trivial, ne_unknown_of_productOperator? hop, hleft.isLegible hts,
      hright.isLegible (List.forall_mem_cons.1 hus).2⟩

theorem IsFactor.isLegible {n : Nat} {ts : List Token} {e : Expr} (h : IsFactor n ts e) :
    (∀ t ∈ ts, t.IsScanned) → e.IsOperand ∧ e.IsLegible :=
  match h with
  | .atom h => h.isLegible
  | .negate h => fun hts => ⟨trivial, h.isLegible (List.forall_mem_cons.1 hts).2⟩

theorem IsAtom.isLegible {n : Nat} {ts : List Token} {e : Expr} (h : IsAtom n ts e) :
    (∀ t ∈ ts, t.IsScanned) → e.IsOperand ∧ e.IsLegible :=
  match h with
  | .number => fun hts => ⟨trivial, hts _ List.mem_cons_self⟩
  | .cell ha => fun _ => ⟨trivial, Address.isReadable_of_read ha⟩
  | .group h => fun hts =>
    h.isLegible (List.forall_mem_append.1 (List.forall_mem_cons.1 hts).2).1
  | .emptyCall hname => fun hts => by
    obtain ⟨hname, hlower⟩ := isName_of_functionName? (hts _ List.mem_cons_self) hname
    exact ⟨trivial, hname, hlower, trivial⟩
  | .call hname hargs => fun hts => by
    obtain ⟨ht, hts⟩ := List.forall_mem_cons.1 hts
    obtain ⟨hname, hlower⟩ := isName_of_functionName? ht hname
    have hargs := hargs.areLegible (List.forall_mem_append.1 (List.forall_mem_cons.1 hts).2).1
    exact ⟨trivial, hname, hlower, hargs⟩

theorem IsArguments.areLegible {n : Nat} {ts : List Token} {es : List Expr}
    (h : IsArguments n ts es) : (∀ t ∈ ts, t.IsScanned) → AreLegible es :=
  match h with
  | .last h => fun hts => ⟨h.isLegible hts, trivial⟩
  | .more h hmore => fun hts => by
    obtain ⟨hts, hus⟩ := List.forall_mem_append.1 hts
    exact ⟨h.isLegible hts, hmore.areLegible (List.forall_mem_cons.1 hus).2⟩

theorem IsArgument.isLegible {n : Nat} {ts : List Token} {e : Expr} (h : IsArgument n ts e) :
    (∀ t ∈ ts, t.IsScanned) → e.IsLegible :=
  match h with
  | .range hstart hstop => fun _ =>
    ⟨Address.isReadable_of_read hstart, Address.isReadable_of_read hstop⟩
  | .sum h => fun hts => (h.isLegible hts).2

end

/-! ## Room -/

namespace Expr

mutual

/-- The room that a tree takes up when it is written as an operand of the level `outer`. -/
def nesting (outer : Nat) : Expr → Nat
  | binary op left right =>
    let n := max (left.nesting op.level) (right.nesting (op.level + 1))
    if op.level < outer then n + groupCost else n
  | negate operand => operand.nesting negationLevel + minusCost
  | call _ args => nestingAll args + callCost
  | _ => 0

/-- The room that arguments take up. -/
def nestingAll : List Expr → Nat
  | [] => 0
  | e :: es => max (e.nesting 0) (nestingAll es)

end

/-- Where less needs parentheses, less room is taken up. -/
theorem nesting_mono {m n : Nat} (h : m ≤ n) (e : Expr) : e.nesting m ≤ e.nesting n := by
  cases e with
  | binary op left right =>
    simp only [nesting]
    split <;> split <;> omega
  | _ => exact Nat.le_refl _

/-- The parentheses around a tree take up the room of parentheses. -/
theorem nesting_le_add (outer : Nat) (e : Expr) : e.nesting outer ≤ e.nesting 0 + groupCost := by
  cases e with
  | binary op left right =>
    simp only [nesting, Nat.not_lt_zero, if_false]
    split <;> omega
  | _ => exact Nat.le_add_right _ _

end Expr

mutual

/-- A tree does not take up more room than the derivation from which it was read. -/
theorem IsSum.nesting_le {n : Nat} {ts : List Token} {e : Expr} (h : IsSum n ts e) :
    e.nesting 1 ≤ n :=
  match h with
  | .product h => Nat.le_trans (nesting_mono (by decide) e) h.nesting_le
  | .operator hleft hop hright => by
    have hleft := hleft.nesting_le
    have hright := hright.nesting_le
    -- The operands of a sum are written at the levels 1 and 2, as they were read.
    simp only [nesting, level_of_sumOperator? hop]
    exact max_le_max hleft hright

theorem IsProduct.nesting_le {n : Nat} {ts : List Token} {e : Expr} (h : IsProduct n ts e) :
    e.nesting 2 ≤ n :=
  match h with
  | .factor h => Nat.le_trans (nesting_mono (by decide) e) h.nesting_le
  | .operator hleft hop hright => by
    have hleft := hleft.nesting_le
    have hright := hright.nesting_le
    simp only [nesting, level_of_productOperator? hop]
    exact max_le_max hleft hright

theorem IsFactor.nesting_le {n : Nat} {ts : List Token} {e : Expr} (h : IsFactor n ts e) :
    e.nesting negationLevel ≤ n :=
  match h with
  | .atom h => h.nesting_le
  | .negate h => Nat.add_le_add_right h.nesting_le minusCost

theorem IsAtom.nesting_le {n : Nat} {ts : List Token} {e : Expr} (h : IsAtom n ts e) :
    e.nesting negationLevel ≤ n :=
  match h with
  | .number | .cell _ => Nat.zero_le _
  | .group h => by
    -- Parentheses are written at most where the text had some.
    have hgroup := nesting_le_add negationLevel e
    have hsum := nesting_mono (Nat.zero_le 1) e
    have hle := h.nesting_le
    omega
  | .emptyCall _ => Nat.le_refl _
  | .call _ hargs => Nat.add_le_add_right hargs.nestingAll_le callCost

theorem IsArguments.nestingAll_le {n : Nat} {ts : List Token} {es : List Expr}
    (h : IsArguments n ts es) : nestingAll es ≤ n :=
  match h with
  | .last h => Nat.max_le.2 ⟨h.nesting_le, Nat.zero_le _⟩
  | .more h hmore => by
    have he := h.nesting_le
    have hes := hmore.nestingAll_le
    simp only [nestingAll]
    omega

theorem IsArgument.nesting_le {n : Nat} {ts : List Token} {e : Expr} (h : IsArgument n ts e) :
    e.nesting 0 ≤ n :=
  match h with
  | .range _ _ => Nat.zero_le _
  | .sum h => Nat.le_trans (nesting_mono (by decide) e) h.nesting_le

end

end DecimalSheet
