import DecimalSheet.Formula.Basic
import DecimalSheet.Proofs.Formula.Legible
import DecimalSheet.Proofs.Formula.Lexemes

/-!
# Canonical texts are read again

The canonical text of a legible tree makes tokens from which the grammar derives the same tree. An
operand that stands in parentheses is derived as an atom, and one that does not is of the level that
its place asks for. The derivation does not take up more room than the tree does, so there is room
for it whenever there was room for the text from which the tree was read.

## Main definitions

* `Expr.tokens outer`: the tokens of the text of a tree as an operand of the level `outer`
* `Expr.IsDerived`: the tokens of a tree are derived with this tree, at each level
* `Formula.HasCanonical`: a text is the canonical text of a formula

## Main results

* `Expr.scans_printed`: the text of a legible tree makes these tokens
* `Expr.isDerived_of_isLegible`: the tokens of a legible tree are derived with this tree
* `Formula.tree_of_canonical`: the canonical text of a formula has the same tree and the same
  canonical text
-/

namespace DecimalSheet

/-- The token of an operator. -/
def Operator.token : Operator → Token
  | add => .plus
  | sub => .minus
  | mul => .times
  | div => .divide
  | unknown symbol => .name symbol

namespace Expr

mutual

/-- The tokens of the text of a tree as an operand of the level `outer`. -/
def tokens (outer : Nat) : Expr → List Token
  | number value => [.number value]
  | cell a => [.reference a.text]
  | range r => [.reference r.start.text, .colon, .reference r.stop.text]
  | negate operand => .minus :: operand.tokens negationLevel
  | binary op left right =>
    let ts := left.tokens op.level ++ op.token :: right.tokens (op.level + 1)
    if op.level < outer then .opening :: ts ++ [.closing] else ts
  | call name args =>
    Token.ofName (Text.upper name).toList :: .opening :: argumentTokens args ++ [.closing]
  | foreign _ => []

/-- The tokens of the texts of arguments, with a comma between them. -/
def argumentTokens : List Expr → List Token
  | [] => []
  | [e] => e.tokens 0
  | e :: es => e.tokens 0 ++ .comma :: argumentTokens es

end

/-! ## Scanning -/

mutual

/-- The text of a legible tree makes the tokens of the tree. -/
theorem scans_printed :
    (e : Expr) → (outer : Nat) → e.IsLegible → Token.Scans (e.printed outer) (e.tokens outer)
  | number value, _, h => Token.scans_number h
  | cell a, _, _ => Token.scans_address a
  | range r, _, _ => by
    have hstop := (Token.scans_address r.stop).symbol (c := ':') rfl
    have htext : r.text.toList = r.start.text.toList ++ ':' :: r.stop.text.toList := by
      simp [Range.text]
    rw [printed, htext]
    exact (Token.scans_address r.start).append_cons (by decide) hstop
  | foreign _, _, h => h.elim
  | negate operand, _, ⟨_, h⟩ => (scans_printed operand negationLevel h).symbol rfl
  | binary op left right, outer, ⟨hop, ⟨_, hl⟩, _, hr⟩ => by
    have hleft := scans_printed left op.level hl
    have hright := scans_printed right (op.level + 1) hr
    -- The symbol is followed by a blank character and the right operand.
    have hsymbol : Token.Scans (op.symbol.toList ++ ' ' :: right.printed (op.level + 1))
        (op.token :: right.tokens (op.level + 1)) := by
      cases op with
      | unknown symbol => exact absurd rfl (hop symbol)
      | _ => exact (hright.blank (c := ' ') rfl).symbol rfl
    -- A blank character ends the left operand.
    have htext := hleft.append_cons (by decide) (hsymbol.blank (c := ' ') rfl)
    simp only [printed, tokens]
    split
    · simpa using htext.group
    · simpa using htext
  | call name args, _, ⟨hname, _, hargs⟩ => by
    have hgroup := (scans_printedArgs args hargs).group
    have htext := (Token.scans_name hname.upper).append_cons (by decide) hgroup
    rw [printed, tokens]
    simpa using htext

theorem scans_printedArgs :
    (es : List Expr) → AreLegible es → Token.Scans (printedArgs es) (argumentTokens es)
  | [], _ => Token.scans_nil
  | [e], ⟨h, _⟩ => scans_printed e 0 h
  | e :: e' :: es, ⟨h, hes⟩ => by
    have hmore := (scans_printedArgs (e' :: es) hes).blank (c := ' ') rfl
    exact (scans_printed e 0 h).append_cons (by decide) (hmore.symbol (c := ',') rfl)

end

/-! ## Derivations -/

/-- The tokens of a tree are derived with this tree, at each level. -/
structure IsDerived (e : Expr) : Prop where
  factor : IsFactor (e.nesting negationLevel) (e.tokens negationLevel) e
  product : IsProduct (e.nesting 2) (e.tokens 2) e
  sum : ∀ outer ≤ 1, IsSum (e.nesting outer) (e.tokens outer) e

variable {op : Operator} {left right : Expr}

theorem isDerived_of_isFactor {e : Expr}
    (h : ∀ outer, IsFactor (e.nesting outer) (e.tokens outer) e) : e.IsDerived where
  factor := h negationLevel
  product := .factor (h 2)
  sum outer _ := .product (.factor (h outer))

theorem isDerived_product (hlevel : op.level = 2) (hop : productOperator? op.token = some op)
    (hleft : left.IsDerived) (hright : right.IsDerived) : (binary op left right).IsDerived := by
  have h := hleft.product.operator hop hright.factor
  -- As a factor the product stands in parentheses, and elsewhere it does not.
  refine ⟨?_, ?_, fun outer houter => ?_⟩
  · simpa [nesting, tokens, hlevel, negationLevel] using IsFactor.atom (.group (.product h))
  · simpa [nesting, tokens, hlevel, negationLevel] using h
  · have hplain : ¬2 < outer := by omega
    simpa [nesting, tokens, hlevel, negationLevel, hplain] using IsSum.product h

theorem isDerived_sum (hlevel : op.level = 1) (hop : sumOperator? op.token = some op)
    (hleft : left.IsDerived) (hright : right.IsDerived) : (binary op left right).IsDerived := by
  have h := (hleft.sum 1 (Nat.le_refl 1)).operator hop hright.product
  -- As a factor and as a product the sum stands in parentheses.
  refine ⟨?_, ?_, fun outer houter => ?_⟩
  · simpa [nesting, tokens, hlevel, negationLevel] using IsFactor.atom (.group h)
  · simpa [nesting, tokens, hlevel] using IsProduct.factor (.atom (.group h))
  · have hplain : ¬1 < outer := by omega
    simpa [nesting, tokens, hlevel, hplain] using h

/-- A name before a parenthesis is the name of the function in lower case, whether or not it looks
like an address. -/
theorem functionName?_ofName {name : String} (hname : Token.IsName name.toList)
    (hlower : Text.lower name = name) :
    functionName? (Token.ofName (Text.upper name).toList) = some name := by
  have hupper : Text.lower (Text.upper name) = name := (Text.lower_upper hname.isAscii).trans hlower
  unfold Token.ofName
  split <;> rw [functionName?, String.ofList_toList, hupper]

theorem isArgument_of_isLegible {e : Expr} (h : e.IsLegible)
    (hderived : e.IsOperand → e.IsDerived) : IsArgument (e.nesting 0) (e.tokens 0) e := by
  cases e with
  | range r => exact .range (Address.read_text h.1) (Address.read_text h.2)
  | _ => exact .sum ((hderived trivial).sum 0 (Nat.zero_le 1))

mutual

/-- The tokens of a legible tree are derived with this tree. -/
theorem isDerived_of_isLegible : (e : Expr) → e.IsOperand → e.IsLegible → e.IsDerived
  | number _, _, _ => isDerived_of_isFactor fun _ => .atom .number
  | cell _, _, h => isDerived_of_isFactor fun _ => .atom (.cell (Address.read_text h))
  | range _, h, _ | foreign _, _, h => h.elim
  | negate operand, _, ⟨hoperand, h⟩ =>
    isDerived_of_isFactor fun _ => .negate (isDerived_of_isLegible operand hoperand h).factor
  | binary op left right, _, ⟨hop, ⟨hl, hleft⟩, hr, hright⟩ => by
    have hleft := isDerived_of_isLegible left hl hleft
    have hright := isDerived_of_isLegible right hr hright
    -- The levels of the operators are those of the rules.
    cases op with
    | add | sub => exact isDerived_sum rfl rfl hleft hright
    | mul | div => exact isDerived_product rfl rfl hleft hright
    | unknown symbol => exact absurd rfl (hop symbol)
  | call name args, _, ⟨hname, hlower, hargs⟩ => by
    have hcalled := functionName?_ofName hname hlower
    have hderived := isArguments_of_areLegible args hargs
    refine isDerived_of_isFactor fun _ => .atom ?_
    cases args with
    | nil => exact .emptyCall hcalled
    | cons e es => exact .call hcalled (hderived (List.cons_ne_nil e es))

theorem isArguments_of_areLegible :
    (es : List Expr) → AreLegible es → es ≠ [] → IsArguments (nestingAll es) (argumentTokens es) es
  | [], _, h => absurd rfl h
  | [e], ⟨h, _⟩, _ => by
    have he := isArgument_of_isLegible h (isDerived_of_isLegible e · h)
    simpa [nestingAll, argumentTokens] using IsArguments.last he
  | e :: e' :: es, ⟨h, hes⟩, _ => by
    have he := isArgument_of_isLegible h (isDerived_of_isLegible e · h)
    exact .more he (isArguments_of_areLegible (e' :: es) hes (List.cons_ne_nil e' es))

end

/-! ## Trees that are too high -/

mutual

/-- A tree that formulas can have has no text only if it is too high. -/
theorem unprintable?_eq : (e : Expr) → (room : Nat) → e.IsProper →
    e.unprintable? room = if e.printedHeight ≤ room then none else some .tooDeep
  | e, 0, _ => by
    have hheight : ¬e.printedHeight ≤ 0 := by cases e <;> simp [printedHeight, printedCallHeight]
    rw [unprintable?, if_neg hheight]
  | number _, room + 1, _ | cell _, room + 1, _ | range _, room + 1, _ => by
    simp [unprintable?, printedHeight]
  | foreign _, _ + 1, h => h.elim
  | negate operand, room + 1, h => by
    rw [unprintable?, unprintable?_eq operand room h]
    simp only [printedHeight, Nat.add_le_add_iff_right]
  | binary op left right, room + 1, ⟨hop, hl, hr⟩ => by
    have hlevel : op.level? ≠ none := by
      cases op with
      | unknown symbol => exact absurd rfl (hop symbol)
      | _ => simp [Operator.level?]
    rw [unprintable?, if_neg hlevel, unprintable?_eq left room hl, unprintable?_eq right room hr]
    simp only [printedHeight, Nat.add_le_add_iff_right, Nat.max_le]
    split <;> split <;> simp_all
  | call _ args, room + 1, h => by
    rw [unprintable?, unprintableArg?_eq args _ h]
    by_cases hroom : room + 1 < printedCallHeight
    · have hheight : ¬printedHeightAll args + printedCallHeight ≤ room + 1 := by omega
      rw [if_pos hroom, printedHeight, if_neg hheight]
    · rw [if_neg hroom, printedHeight]
      simp only [Nat.le_sub_iff_add_le (Nat.not_lt.1 hroom)]

theorem unprintableArg?_eq : (es : List Expr) → (room : Nat) → AreProper es →
    unprintableArg? room es = if printedHeightAll es ≤ room then none else some .tooDeep
  | [], _, _ => by simp [unprintableArg?, printedHeightAll]
  | e :: es, room, ⟨h, hes⟩ => by
    rw [unprintableArg?, unprintable?_eq e room h, unprintableArg?_eq es room hes]
    simp only [printedHeightAll, Nat.max_le]
    split <;> split <;> simp_all

end

/-- A tree that formulas can have is printed exactly if it is not too high. -/
theorem print_eq {e : Expr} (h : e.IsProper) (outer : Nat) :
    e.print outer =
      if e.IsPrintable then .ok (String.ofList (e.printed outer)) else .error .tooDeep := by
  rw [print, unprintable?_eq e maxHeight h]
  unfold IsPrintable
  split <;> simp_all

end Expr

namespace Formula

open DecimalSheet.Expr

/-! ## Formulas -/

theorem isPrefixOf_append (marker text : String) :
    marker.toList.isPrefixOf (marker ++ text).toList = true := by
  rw [String.toList_append]
  exact List.isPrefixOf_iff_prefix.2 (List.prefix_append _ _)

theorem body_of_marker (marker text : String) :
    body ⟨marker ++ text, some marker⟩ = text := by
  unfold body isMarked
  simp only [isPrefixOf_append, Bool.and_true, Option.getD_some]
  split
  · rw [String.toList_append, ← String.length_toList, List.drop_left, String.ofList_toList]
  · -- Only an empty marker is not cut off.
    have hempty : marker = "" := by simp_all
    rw [hempty, String.empty_append]

/-- A text is the canonical text of a formula. -/
def HasCanonical (f : Formula) (text : String) : Prop :=
  ∃ e, f.tree = .ok e ∧ canonicalOf f.marker e = .ok text

theorem exists_tokens_of_tree {f : Formula} {e : Expr} (h : f.tree = .ok e) :
    ∃ ts, f.tokens = .ok ts := by
  unfold tree at h
  split at h
  · cases h
  · exact ⟨_, ‹_›⟩

/-- A tree of a formula is legible, and there is room for it. -/
theorem isLegible_of_tree {f : Formula} {e : Expr} (h : f.tree = .ok e) :
    e.IsOperand ∧ e.IsLegible ∧ e.nesting 0 ≤ maxNesting := by
  obtain ⟨ls, hls⟩ := exists_tokens_of_tree h
  obtain ⟨n, hn, hsum⟩ := parse_eq_ok_iff.1 ((tree_eq_ok_iff hls).1 h)
  -- The tokens come from a text, so the tree that was read from them is legible.
  have hscanned : ∀ l ∈ ls, l.token.IsScanned := fun l hl => by
    obtain ⟨w, hw⟩ := Token.exists_isLexeme_of_scan hls hl
    exact hw.isScanned
  obtain ⟨hoperand, hlegible⟩ := hsum.isLegible (List.forall_mem_map.2 hscanned)
  exact ⟨hoperand, hlegible,
    (nesting_mono (Nat.zero_le 1) e).trans (hsum.nesting_le.trans hn)⟩

/-- The text of a legible tree for which there is room has this tree. -/
theorem tree_of_printed {e : Expr} (hoperand : e.IsOperand) (hlegible : e.IsLegible)
    (hroom : e.nesting 0 ≤ maxNesting) (marker : String) :
    tree ⟨marker ++ String.ofList (e.printed 0), some marker⟩ = .ok e := by
  have hscan : Token.tokensFrom 0 (e.printed 0) = .ok (e.tokens 0) :=
    (scans_printed e 0 hlegible).tokensFrom_eq
  obtain ⟨ls, hls, hts⟩ := exists_of_map_eq_ok hscan
  -- The scanner passes over the marker.
  have htokens : tokens ⟨marker ++ String.ofList (e.printed 0), some marker⟩ = .ok ls := by
    rw [tokens, body_of_marker, Token.scan, String.toList_ofList, hls]
  have hsum := (isDerived_of_isLegible e hoperand hlegible).sum 0 (Nat.zero_le 1)
  rw [tree_eq_ok_iff htokens, hts]
  exact parse_eq_ok_iff.2 ⟨_, hroom, hsum⟩

/-- The canonical text of a formula whose tree is not too high to be printed has the same tree, with
the coefficient and the exponent of every number, and the same canonical text. -/
theorem tree_of_canonical {source marker : String} {e : Expr}
    (h : tree ⟨source, some marker⟩ = .ok e) (hprintable : e.IsPrintable) :
    ∃ canonical, canonicalOf (some marker) e = .ok canonical ∧
      tree ⟨canonical, some marker⟩ = .ok e ∧ HasCanonical ⟨canonical, some marker⟩ canonical := by
  obtain ⟨hoperand, hlegible, hroom⟩ := isLegible_of_tree h
  have hcanonical : canonicalOf (some marker) e =
      .ok (marker ++ String.ofList (e.printed 0)) := by
    rw [canonicalOf, print_eq (isProper_of_tree h), if_pos hprintable]
    rfl
  have htree := tree_of_printed hoperand hlegible hroom marker
  exact ⟨_, hcanonical, htree, e, htree, hcanonical⟩

theorem tree_of_canonical_group :
    let e := Expr.binary .mul (.binary .add (.number .one) (.cell ⟨0, 0⟩)) (.number ⟨false, 50, -2⟩)
    tree ⟨"=(01+a1)*.50", some "="⟩ = .ok e ∧
      canonicalOf (some "=") e = .ok "=(1 + A1) * 0.50" ∧
        tree ⟨"=(1 + A1) * 0.50", some "="⟩ = .ok e := by
  intro e
  have htokens : tokens ⟨"=(01+a1)*.50", some "="⟩ = .ok
      [⟨.opening, 0⟩, ⟨.number .one, 1⟩, ⟨.plus, 3⟩, ⟨.reference "a1", 4⟩, ⟨.closing, 6⟩,
        ⟨.times, 7⟩, ⟨.number ⟨false, 50, -2⟩, 8⟩] := by cbv
  have hone : IsSum 0 [.number .one] (.number .one) := .product (.factor (.atom .number))
  have hcell : IsProduct 0 [.reference "a1"] (.cell ⟨0, 0⟩) := .factor (.atom (.cell rfl))
  have hgroup := IsAtom.group (hone.operator (t := .plus) rfl hcell)
  have hproduct : IsProduct _ _ e :=
    (IsProduct.factor (.atom hgroup)).operator (t := .times) rfl (.atom .number)
  have htree : tree ⟨"=(01+a1)*.50", some "="⟩ = .ok e :=
    (tree_eq_ok_iff htokens).2 (parse_eq_ok_iff.2 ⟨_, by decide, .product hproduct⟩)
  obtain ⟨canonical, hcanonical, hagain, -⟩ := tree_of_canonical htree (by decide)
  have htext : canonicalOf (some "=") e = .ok "=(1 + A1) * 0.50" := by cbv
  obtain rfl := Except.ok.inj (hcanonical.symm.trans htext)
  exact ⟨htree, htext, hagain⟩

/-! ## A sum that is too long -/

/-- The sum of `n + 1` ones. -/
def ones : Nat → Expr
  | 0 => .number .one
  | n + 1 => .binary .add (ones n) (.number .one)

theorem printedHeight_ones (n : Nat) : (ones n).printedHeight = n + 1 := by
  induction n with
  | zero => rfl
  | succ n ih => simp [ones, printedHeight, ih]

theorem nesting_ones (n : Nat) : ∀ outer ≤ 1, (ones n).nesting outer = 0 := by
  induction n with
  | zero => exact fun _ _ => rfl
  | succ n ih =>
    intro outer houter
    have hplain : ¬1 < outer := Nat.not_lt.2 houter
    simp [ones, nesting, Operator.level, Operator.level?, hplain, ih 1 (Nat.le_refl 1)]

theorem isLegible_ones (n : Nat) : (ones n).IsOperand ∧ (ones n).IsLegible := by
  have hone : Decimal.one.IsLiteral := ⟨rfl, Int.le_refl 0⟩
  induction n with
  | zero => exact ⟨trivial, hone⟩
  | succ n ih => exact ⟨trivial, by rintro symbol ⟨⟩, ih, trivial, hone⟩

theorem printed_ones (n : Nat) :
    ∀ outer ≤ 1, (ones n).printed outer =
      '1' :: (List.replicate n [' ', '+', ' ', '1']).flatten := by
  induction n with
  | zero => exact fun _ _ => rfl
  | succ n ih =>
    intro outer houter
    have hplain : ¬1 < outer := Nat.not_lt.2 houter
    have hone : Decimal.one.plain.toList = ['1'] := rfl
    rw [List.replicate_succ', List.flatten_append]
    simp [ones, printed, Operator.level, Operator.level?, Operator.symbol, hplain, hone,
      ih 1 (Nat.le_refl 1)]

/-- A formula with a sum of 2001 ones. -/
def longSum : Formula where
  source := "=" ++ String.ofList ('1' :: (List.replicate 2000 [' ', '+', ' ', '1']).flatten)
  marker := some "="

theorem tree_longSum : longSum.tree = .ok (ones 2000) := by
  obtain ⟨hoperand, hlegible⟩ := isLegible_ones 2000
  have hroom : (ones 2000).nesting 0 ≤ maxNesting := by
    rw [nesting_ones 2000 0 (Nat.zero_le 1)]
    exact Nat.zero_le _
  -- The tree is that of the text, although there is no canonical text to be read again.
  have hprinted := tree_of_printed hoperand hlegible hroom "="
  rwa [printed_ones 2000 0 (Nat.zero_le 1)] at hprinted

theorem print_ones_ne_ok (outer : Nat) (text : String) : (ones 2000).print outer ≠ .ok text := by
  have hheight : ¬(ones 2000).IsPrintable := by
    rw [IsPrintable, printedHeight_ones]
    decide
  intro hprint
  rw [print_eq (isProper_of_tree tree_longSum), if_neg hheight] at hprint
  cases hprint

/-- A long sum has a tree, since the parser reads it without going down, but the tree is too high
to be written. -/
theorem not_hasCanonical_longSum :
    (∃ e, longSum.tree = .ok e) ∧ ∀ canonical, ¬longSum.HasCanonical canonical := by
  refine ⟨⟨_, tree_longSum⟩, ?_⟩
  rintro canonical ⟨e, he, hcanonical⟩
  obtain rfl := Except.ok.inj (tree_longSum.symm.trans he)
  obtain ⟨text, htext, -⟩ := exists_of_map_eq_ok hcanonical
  exact print_ones_ne_ok 0 text htext

end Formula

end DecimalSheet
