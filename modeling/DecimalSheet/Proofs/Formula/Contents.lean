import DecimalSheet.Proofs.Address.Canonical

/-!
# What trees are made of

A tree that has been read from tokens has nothing in it that the tokens do not have: its numbers are
those of tokens, its operators stand for tokens, and so do the names of its functions, which are in
lower case. An address may be spelled in several ways, but the tree has it with its canonical text
only. Ranges stand as arguments of calls and nowhere else.

## Main definitions

* `Address.IsWritten ts a`: a reference among the tokens is a spelling of the address
* `Expr.IsMadeOf ts e`: the root of a tree is made of the tokens
* `Expr.IsOperandOf ts e`: a tree is no range, and all its nodes are made of the tokens

## Main results

* `IsSum.isOperandOf`: a tree that is read is made of the tokens from which it is read
-/

namespace DecimalSheet

/-- A reference among the tokens is a spelling of the address, in letters of either case, and the
canonical text of the address, with the letters in upper case and without zeros in front of the
number, is read as the address. -/
def Address.IsWritten (ts : List Token) (a : Address) : Prop :=
  (∃ text, .reference text ∈ ts ∧ ∃ p : Spelling, p.text = text.toList ∧ p.address = a ∧
    a.text.toList = p.letters.map Char.toUpper ++ Nat.toDigits 10 p.rowNumber) ∧
  read a.text = .ok a

theorem Address.isWritten_of_read {ts : List Token} {text : String} {a : Address}
    (hmem : .reference text ∈ ts) (h : read text = .ok a) : a.IsWritten ts := by
  refine ⟨⟨text, hmem, ?_⟩, read_text (isReadable_of_read h)⟩
  obtain ⟨p, hp, rfl⟩ := read_eq_ok_iff.1 h
  exact ⟨p, hp, rfl, p.toList_text_address⟩

namespace Expr

variable {ts us : List Token} {t : Token}

/-- The root of a tree is made of the tokens, and the trees below it stand where they may: only the
arguments of a call may be ranges. -/
def IsMadeOf (ts : List Token) : Expr → Prop
  | number value => .number value ∈ ts
  | cell a => a.IsWritten ts
  | range r => r.start.IsWritten ts ∧ r.stop.IsWritten ts
  | binary op left right =>
    (op.symbol ∈ ["+", "-", "*", "/"] ∧
      ∃ t ∈ ts, sumOperator? t = some op ∨ productOperator? t = some op) ∧
    left.IsOperand ∧ right.IsOperand
  | negate operand => operand.IsOperand
  | call name _ => (∃ t ∈ ts, functionName? t = some name) ∧ Text.lower name = name
  | foreign _ => False

/-- The tree may stand as an operand, and all its nodes are made of the tokens. -/
def IsOperandOf (ts : List Token) (e : Expr) : Prop :=
  e.IsOperand ∧ ∀ node ∈ e.nodes, node.IsMadeOf ts

theorem symbol_of_sumOperator? {op : Operator} (h : sumOperator? t = some op) :
    op.symbol ∈ ["+", "-", "*", "/"] := by
  cases t <;> cases h <;> decide

theorem symbol_of_productOperator? {op : Operator} (h : productOperator? t = some op) :
    op.symbol ∈ ["+", "-", "*", "/"] := by
  cases t <;> cases h <;> decide

namespace IsOperandOf

variable {left right operand : Expr}

theorem binary {op : Operator} (hleft : left.IsOperandOf ts) (hright : right.IsOperandOf ts)
    (hsymbol : op.symbol ∈ ["+", "-", "*", "/"])
    (hop : ∃ t ∈ ts, sumOperator? t = some op ∨ productOperator? t = some op) :
    (Expr.binary op left right).IsOperandOf ts := by
  refine ⟨trivial, List.forall_mem_cons.2 ⟨⟨⟨hsymbol, hop⟩, hleft.1, hright.1⟩, ?_⟩⟩
  exact List.forall_mem_append.2 ⟨hleft.2, hright.2⟩

theorem negate (h : operand.IsOperandOf ts) : (Expr.negate operand).IsOperandOf ts :=
  ⟨trivial, List.forall_mem_cons.2 ⟨h.1, h.2⟩⟩

theorem call {name : String} {args : List Expr} (ht : t ∈ ts) (hname : functionName? t = some name)
    (hargs : ∀ node ∈ nodesAll args, node.IsMadeOf ts) : (Expr.call name args).IsOperandOf ts :=
  ⟨trivial, List.forall_mem_cons.2 ⟨⟨⟨t, ht, hname⟩, lower_of_functionName? hname⟩, hargs⟩⟩

end IsOperandOf

end Expr

open DecimalSheet.Expr

-- The tokens of a part are among those of the whole, so all rules are proved about tokens that are
-- among some others.
mutual

theorem IsSum.isOperandOf {n : Nat} {us ts : List Token} {e : Expr} (h : IsSum n us e) :
    us ⊆ ts → e.IsOperandOf ts :=
  match h with
  | .product h => h.isOperandOf
  | .operator hleft hop hright => fun hts => by
    obtain ⟨hus, hvs⟩ := List.append_subset.1 hts
    obtain ⟨ht, hvs⟩ := List.cons_subset.1 hvs
    exact .binary (hleft.isOperandOf hus) (hright.isOperandOf hvs) (symbol_of_sumOperator? hop)
      ⟨_, ht, .inl hop⟩

theorem IsProduct.isOperandOf {n : Nat} {us ts : List Token} {e : Expr} (h : IsProduct n us e) :
    us ⊆ ts → e.IsOperandOf ts :=
  match h with
  | .factor h => h.isOperandOf
  | .operator hleft hop hright => fun hts => by
    obtain ⟨hus, hvs⟩ := List.append_subset.1 hts
    obtain ⟨ht, hvs⟩ := List.cons_subset.1 hvs
    exact .binary (hleft.isOperandOf hus) (hright.isOperandOf hvs) (symbol_of_productOperator? hop)
      ⟨_, ht, .inr hop⟩

theorem IsFactor.isOperandOf {n : Nat} {us ts : List Token} {e : Expr} (h : IsFactor n us e) :
    us ⊆ ts → e.IsOperandOf ts :=
  match h with
  | .atom h => h.isOperandOf
  | .negate h => fun hts => .negate (h.isOperandOf (List.cons_subset.1 hts).2)

theorem IsAtom.isOperandOf {n : Nat} {us ts : List Token} {e : Expr} (h : IsAtom n us e) :
    us ⊆ ts → e.IsOperandOf ts :=
  match h with
  | .number => fun hts => ⟨trivial, List.forall_mem_singleton.2 (hts List.mem_cons_self)⟩
  | .cell ha => fun hts =>
    ⟨trivial, List.forall_mem_singleton.2 (Address.isWritten_of_read (hts List.mem_cons_self) ha)⟩
  | .group h => fun hts =>
    h.isOperandOf (List.append_subset.1 (List.cons_subset.1 hts).2).1
  | .emptyCall hname => fun hts => .call (hts List.mem_cons_self) hname (List.forall_mem_nil _)
  | .call hname hargs => fun hts => by
    obtain ⟨ht, hts⟩ := List.cons_subset.1 hts
    exact .call ht hname
      (hargs.isMadeOf (List.append_subset.1 (List.cons_subset.1 hts).2).1)

theorem IsArguments.isMadeOf {n : Nat} {us ts : List Token} {es : List Expr}
    (h : IsArguments n us es) : us ⊆ ts → ∀ node ∈ nodesAll es, node.IsMadeOf ts :=
  match h with
  | .last h => fun hts => List.forall_mem_append.2 ⟨h.isMadeOf hts, List.forall_mem_nil _⟩
  | .more h hmore => fun hts => by
    obtain ⟨hus, hvs⟩ := List.append_subset.1 hts
    exact List.forall_mem_append.2
      ⟨h.isMadeOf hus, hmore.isMadeOf (List.cons_subset.1 hvs).2⟩

theorem IsArgument.isMadeOf {n : Nat} {us ts : List Token} {e : Expr} (h : IsArgument n us e) :
    us ⊆ ts → ∀ node ∈ e.nodes, node.IsMadeOf ts :=
  match h with
  | .range hstart hstop => fun hts => List.forall_mem_singleton.2
    ⟨Address.isWritten_of_read (hts (by simp)) hstart,
      Address.isWritten_of_read (hts (by simp)) hstop⟩
  | .sum h => fun hts => (h.isOperandOf hts).2

end

end DecimalSheet
