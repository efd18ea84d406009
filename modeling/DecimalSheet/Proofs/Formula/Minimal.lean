import DecimalSheet.Proofs.Formula.Parentheses

/-!
# Canonical texts have no needless parentheses

The canonical text of a formula has the tokens of the formula without some of the parentheses that
group. What the canonical text keeps is needed: no text with the same tree has fewer.

## Main results

* `IsSum.simplifies`: the tokens of a tree come from those from which it was read
* `Formula.print_minimal`: the parentheses of canonical texts
-/

namespace DecimalSheet

open DecimalSheet.Expr

/-! ## The tokens of trees -/

theorem Token.ofName_ne_parenthesis (cs : List Char) :
    Token.ofName cs ≠ .opening ∧ Token.ofName cs ≠ .closing := by
  unfold ofName
  split <;> simp

theorem Operator.token_ne_parenthesis (op : Operator) :
    op.token ≠ .opening ∧ op.token ≠ .closing := by
  cases op <;> simp [token]

namespace Expr

mutual

theorem isBalanced_tokens : (e : Expr) → (outer : Nat) → IsBalanced (e.tokens outer)
  | number _, _ | cell _, _ => .cons (by simp) (by simp) .nil
  | range _, _ =>
    .cons (by simp) (by simp) (.cons (by simp) (by simp) (.cons (by simp) (by simp) .nil))
  | foreign _, _ => .nil
  | negate operand, _ => .cons (by simp) (by simp) (isBalanced_tokens operand negationLevel)
  | binary op left right, outer => by
    have hleft := isBalanced_tokens left op.level
    have hright := isBalanced_tokens right (op.level + 1)
    have hop := op.token_ne_parenthesis
    have hplain := hleft.append (.cons hop.1 hop.2 hright)
    simp only [tokens]
    split
    · exact hplain.parenthesized
    · exact hplain
  | call name args, _ => by
    have hname := Token.ofName_ne_parenthesis (Text.upper name).toList
    have hargs := (isBalanced_argumentTokens args).parenthesized
    exact .cons hname.1 hname.2 hargs

theorem isBalanced_argumentTokens : (es : List Expr) → IsBalanced (argumentTokens es)
  | [] => .nil
  | [e] => isBalanced_tokens e 0
  | e :: e' :: es =>
    (isBalanced_tokens e 0).append
      (.cons (by simp) (by simp) (isBalanced_argumentTokens (e' :: es)))

end

/-- Where less needs parentheses, there are fewer of them. -/
theorem ungroups_tokens {m n : Nat} (h : m ≤ n) (e : Expr) :
    Relation.ReflTransGen Ungroups (e.tokens n) (e.tokens m) := by
  cases e with
  | binary op left right =>
    have hplain := isBalanced_tokens (.binary op left right) op.level
    simp only [tokens, Nat.lt_irrefl, if_false] at hplain ⊢
    by_cases hm : op.level < m
    · rw [if_pos hm, if_pos (Nat.lt_of_lt_of_le hm h)]
    · rw [if_neg hm]
      split
      · exact .single (ungroups_parenthesized hplain)
      · exact .refl
  | _ => exact .refl

/-- A tree in parentheses has at least those that an operand of a minus sign needs. -/
theorem ungroups_parenthesized_tokens (e : Expr) :
    Relation.ReflTransGen Ungroups (.opening :: e.tokens 1 ++ [.closing])
      (e.tokens negationLevel) := by
  have hsingle := ungroups_parenthesized (isBalanced_tokens e 1)
  cases e with
  | binary op left right =>
    by_cases hone : op.level < 1
    · -- already in parentheses as a sum
      have htokens :
          (binary op left right).tokens negationLevel = (binary op left right).tokens 1 := by
        have hthree : op.level < negationLevel := Nat.lt_trans hone (by decide)
        simp only [tokens, if_pos hone, if_pos hthree]
      rw [htokens]
      exact .single hsingle
    · by_cases hthree : op.level < negationLevel
      · simp only [tokens, if_neg hone, if_pos hthree]
        exact .refl
      · simp only [tokens, if_neg hone, if_neg hthree] at hsingle ⊢
        exact .single hsingle
  | _ => exact .single hsingle

end Expr

theorem functionName?_of_sumOperator? {t : Token} {op : Operator} (h : sumOperator? t = some op) :
    functionName? t = none ∧ op.token = t := by
  cases t <;> cases h <;> exact ⟨rfl, rfl⟩

theorem functionName?_of_productOperator? {t : Token} {op : Operator}
    (h : productOperator? t = some op) : functionName? t = none ∧ op.token = t := by
  cases t <;> cases h <;> exact ⟨rfl, rfl⟩

theorem Expr.argumentTokens_cons (e : Expr) {es : List Expr} (h : es ≠ []) :
    argumentTokens (e :: es) = e.tokens 0 ++ .comma :: argumentTokens es := by
  obtain ⟨e', es, rfl⟩ := List.exists_cons_of_ne_nil h
  simp [argumentTokens]

theorem IsArguments.ne_nil {n : Nat} {ts : List Token} {es : List Expr}
    (h : IsArguments n ts es) : es ≠ [] := by
  cases h <;> exact List.cons_ne_nil _ _

/-- The tokens are those of lexemes. -/
def AreLexemes (ts : List Token) : Prop := ∀ t ∈ ts, ∃ w, t.IsLexeme w

mutual

/-- The tokens of a tree come from those from which it was read, by removing parentheses that
group. -/
theorem IsSum.simplifies {n : Nat} {ts : List Token} {e : Expr} (h : IsSum n ts e) :
    AreLexemes ts → Simplifies ts (e.tokens 1) :=
  match h with
  | .product h => fun hts => (h.simplifies hts).ungroup (ungroups_tokens (by decide) e)
  | .operator hleft hop hright => fun hts => by
    obtain ⟨hts, hus⟩ := List.forall_mem_append.1 hts
    obtain ⟨hname, htoken⟩ := functionName?_of_sumOperator? hop
    have hplain := (hleft.simplifies hts).around hname
      (hright.simplifies (List.forall_mem_cons.1 hus).2)
    -- The operands of a sum are written at the levels 1 and 2, as they were read.
    simpa [tokens, level_of_sumOperator? hop, htoken] using hplain

theorem IsProduct.simplifies {n : Nat} {ts : List Token} {e : Expr} (h : IsProduct n ts e) :
    AreLexemes ts → Simplifies ts (e.tokens 2) :=
  match h with
  | .factor h => fun hts => (h.simplifies hts).ungroup (ungroups_tokens (by decide) e)
  | .operator hleft hop hright => fun hts => by
    obtain ⟨hts, hus⟩ := List.forall_mem_append.1 hts
    obtain ⟨hname, htoken⟩ := functionName?_of_productOperator? hop
    have hplain := (hleft.simplifies hts).around hname
      (hright.simplifies (List.forall_mem_cons.1 hus).2)
    simpa [tokens, level_of_productOperator? hop, htoken, negationLevel] using hplain

theorem IsFactor.simplifies {n : Nat} {ts : List Token} {e : Expr} (h : IsFactor n ts e) :
    AreLexemes ts → Simplifies ts (e.tokens negationLevel) :=
  match h with
  | .atom h => h.simplifies
  | .negate h => fun hts => by
    have hoperand := h.simplifies (List.forall_mem_cons.1 hts).2
    have hnegated := hoperand.enclose (.cons (.refl .minus) .nil) (endsFree_concat [] rfl) []
    simpa [tokens] using hnegated

theorem IsAtom.simplifies {n : Nat} {ts : List Token} {e : Expr} (h : IsAtom n ts e) :
    AreLexemes ts → Simplifies ts (e.tokens negationLevel) :=
  match h with
  | .number => fun _ => .refl _
  | .cell ha => fun _ =>
    have hagain := Address.read_text (Address.isReadable_of_read ha)
    ⟨_, .cons (.address ha hagain) .nil, .refl⟩
  | .group h => fun hts => by
    have hinner := h.simplifies (List.forall_mem_append.1 (List.forall_mem_cons.1 hts).2).1
    have houter := hinner.enclose (.cons (.refl .opening) .nil) (endsFree_concat [] rfl) [.closing]
    exact houter.ungroup (ungroups_parenthesized_tokens e)
  | .emptyCall hname => fun hts => by
    obtain ⟨⟨w, hw⟩, -⟩ := List.forall_mem_cons.1 hts
    exact (Simplifies.refl []).enclose
      (.cons (Token.respells_of_functionName? hw hname) (.cons (.refl _) .nil))
      (endsFree_concat [_] rfl) [.closing]
  | .call hname hargs => fun hts => by
    obtain ⟨⟨w, hw⟩, hts⟩ := List.forall_mem_cons.1 hts
    have hargs := hargs.simplifies (List.forall_mem_append.1 (List.forall_mem_cons.1 hts).2).1
    exact hargs.enclose (.cons (Token.respells_of_functionName? hw hname) (.cons (.refl _) .nil))
      (endsFree_concat [_] rfl) [.closing]

theorem IsArguments.simplifies {n : Nat} {ts : List Token} {es : List Expr}
    (h : IsArguments n ts es) : AreLexemes ts → Simplifies ts (argumentTokens es) :=
  match h with
  | .last h => h.simplifies
  | .more h hmore => fun hts => by
    obtain ⟨hts, hus⟩ := List.forall_mem_append.1 hts
    have hboth := (h.simplifies hts).around (t := .comma) rfl
      (hmore.simplifies (List.forall_mem_cons.1 hus).2)
    rwa [argumentTokens_cons _ hmore.ne_nil]

theorem IsArgument.simplifies {n : Nat} {ts : List Token} {e : Expr} (h : IsArgument n ts e) :
    AreLexemes ts → Simplifies ts (e.tokens 0) :=
  match h with
  | .range hstart hstop => fun _ =>
    have hstart' := Address.read_text (Address.isReadable_of_read hstart)
    have hstop' := Address.read_text (Address.isReadable_of_read hstop)
    ⟨_, .cons (.address hstart hstart') (.cons (.refl _) (.cons (.address hstop hstop') .nil)),
      .refl⟩
  | .sum h => fun hts => (h.simplifies hts).ungroup (ungroups_tokens (by decide) e)

end

namespace Formula

variable {f : Formula} {ts : List Located} {e : Expr}

theorem areLexemes_of_tokens (hts : f.tokens = .ok ts) : AreLexemes (ts.map (·.token)) :=
  List.forall_mem_map.2 fun _ => Token.exists_isLexeme_of_scan hts

/-- The tokens of the canonical text of a formula come from those of the formula. -/
theorem simplifies_of_tree (hts : f.tokens = .ok ts) (h : f.tree = .ok e) :
    Simplifies (ts.map (·.token)) (e.tokens 0) := by
  obtain ⟨n, -, hsum⟩ := parse_eq_ok_iff.1 ((tree_eq_ok_iff hts).1 h)
  exact (hsum.simplifies (areLexemes_of_tokens hts)).ungroup (ungroups_tokens (Nat.zero_le 1) e)

/-- The text, which makes the tokens `us`, has the tree, and of all texts with the tree it has the
fewest parentheses that group and the least nesting. Without a pair of parentheses it does not have
the tree. -/
structure IsMinimal (text : String) (us : List Token) (e : Expr) : Prop where
  tree_eq : ∀ g : Formula, g.body = text → g.tree = .ok e
  fewest : ∀ (g : Formula) (ls : List Located), g.tokens = .ok ls → g.tree = .ok e →
    groupings false us ≤ groupings false (ls.map (·.token))
  nesting_le : ∀ n vs, IsSum n vs e → ∃ m ≤ n, IsSum m us e
  needed : ∀ a b c (g : Formula), text.toList = a ++ '(' :: b ++ ')' :: c →
    g.body.toList = a ++ b ++ c → g.tree ≠ .ok e

theorem isMinimal_of_isLegible {us : List Located} (hoperand : e.IsOperand)
    (hlegible : e.IsLegible) (hroom : e.nesting 0 ≤ maxNesting)
    (hus : Token.scan (String.ofList (e.printed 0)) = .ok us)
    (htokens : us.map (·.token) = e.tokens 0) :
    IsMinimal (String.ofList (e.printed 0)) (e.tokens 0) e where
  tree_eq g hbody := by
    have hg : g.tokens = .ok us := by rw [tokens, hbody, hus]
    rw [tree_eq_ok_iff hg, htokens]
    exact parse_eq_ok_iff.2
      ⟨_, hroom, (isDerived_of_isLegible e hoperand hlegible).sum 0 (Nat.zero_le 1)⟩
  fewest g ls hls hg := (simplifies_of_tree hls hg).groupings_le
  nesting_le n vs hvs :=
    ⟨_, Nat.le_trans (nesting_mono (Nat.zero_le 1) e) hvs.nesting_le,
      (isDerived_of_isLegible e hoperand hlegible).sum 0 (Nat.zero_le 1)⟩
  needed a b c g htext hbody hg := by
    obtain ⟨ls, hls⟩ := exists_tokens_of_tree hg
    have hle := (simplifies_of_tree hls hg).count_opening_le
    -- The text has one opening parenthesis more than what is left of it.
    have hcount := Token.count_opening hus
    have hcount' := Token.count_opening hls
    rw [htext, htokens] at hcount
    rw [hbody] at hcount'
    simp only [List.count_append, List.count_cons] at hcount hcount'
    simp at hcount hcount'
    omega

/-- The canonical text of a formula whose tree is not too high to be printed has the tokens of the
formula, spelled anew and without some of the parentheses that group. Of all texts with the tree it
has the fewest of them. -/
theorem print_minimal (hts : f.tokens = .ok ts) (h : f.tree = .ok e)
    (hprintable : e.IsPrintable) :
    ∃ text us, e.print 0 = .ok text ∧ Token.scan text = .ok us ∧
      Simplifies (ts.map (·.token)) (us.map (·.token)) ∧
        IsMinimal text (us.map (·.token)) e := by
  obtain ⟨hoperand, hlegible, hroom⟩ := isLegible_of_tree h
  have htext : e.print 0 = .ok (String.ofList (e.printed 0)) := by
    rw [print_eq (isProper_of_tree h), if_pos hprintable]
  have hscan : Token.tokensFrom 0 (e.printed 0) = .ok (e.tokens 0) :=
    (scans_printed e 0 hlegible).tokensFrom_eq
  obtain ⟨us, hus, htokens⟩ := exists_of_map_eq_ok hscan
  rw [← String.toList_ofList (l := e.printed 0)] at hus
  refine ⟨_, us, htext, hus, ?_, ?_⟩
  · rw [htokens]
    exact simplifies_of_tree hts h
  · rw [htokens]
    exact isMinimal_of_isLegible hoperand hlegible hroom hus htokens

/-- Of two pairs of parentheses around a sum that is a factor, one is needed. -/
theorem print_minimal_group :
    let e := Expr.binary .mul (.binary .add (.number .one) (.cell ⟨0, 0⟩)) (.number ⟨false, 50, -2⟩)
    ∃ text us, e.print 0 = .ok text ∧ Token.scan text = .ok us ∧
      Simplifies [.opening, .opening, .number .one, .plus, .reference "a01", .closing, .closing,
        .times, .number ⟨false, 50, -2⟩] (us.map (·.token)) ∧
        IsMinimal text (us.map (·.token)) e := by
  intro e
  have htokens : tokens ⟨"=((1+a01))*.50", some "="⟩ = .ok
      [⟨.opening, 0⟩, ⟨.opening, 1⟩, ⟨.number .one, 2⟩, ⟨.plus, 3⟩, ⟨.reference "a01", 4⟩,
        ⟨.closing, 7⟩, ⟨.closing, 8⟩, ⟨.times, 9⟩, ⟨.number ⟨false, 50, -2⟩, 10⟩] := by cbv
  have hone : IsSum 0 [.number .one] (.number .one) := .product (.factor (.atom .number))
  have hcell : IsProduct 0 [.reference "a01"] (.cell ⟨0, 0⟩) := .factor (.atom (.cell rfl))
  have hgroup := IsAtom.group (hone.operator (t := .plus) rfl hcell)
  have hproduct : IsProduct _ _ e :=
    (IsProduct.factor (.atom (.group (.product (.factor (.atom hgroup)))))).operator (t := .times)
      rfl (.atom .number)
  have htree : tree ⟨"=((1+a01))*.50", some "="⟩ = .ok e :=
    (tree_eq_ok_iff htokens).2 (parse_eq_ok_iff.2 ⟨_, by decide, .product hproduct⟩)
  exact print_minimal htokens htree (by decide)

/-- A long sum has a tree and no canonical text. -/
theorem print_longSum_ne_ok :
    (∃ e, longSum.tree = .ok e) ∧ ∀ e text, longSum.tree = .ok e → e.print 0 ≠ .ok text := by
  refine ⟨⟨_, tree_longSum⟩, fun e text he => ?_⟩
  obtain rfl := Except.ok.inj (tree_longSum.symm.trans he)
  exact print_ones_ne_ok 0 text

end Formula

end DecimalSheet
