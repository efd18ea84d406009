import DecimalSheet.Formula.Basic
import DecimalSheet.Proofs.Formula.Lookahead
import Mathlib

/-!
# The parser and the grammar

The parser reads exactly the lists of tokens that the grammar derives, with the trees of their
derivations, as long as the nesting of the derivation is not above the limit. What a function of
the parser reads is a derivation in front of the rest that it returns, and a derivation in front of
a rest that cannot continue it is read.

## Main definitions

* `Derives P room ts p`: in front of `ts` stands a derivation for which there is room

## Main results

* `parse_eq_ok_iff`: the parser accepts exactly the sums of the grammar
* `IsSum.tree_unique`: a list of tokens has one tree
* `tree_eq_ok_iff_isSum`: the trees of formulas are those of the grammar
-/

namespace DecimalSheet

open DecimalSheet.Expr

/-! ## What is read is derived -/

/-- In front of `ts` stands a derivation of the tree `p.1` for which there is room, and `p.2` is the
rest after it. -/
def Derives {α : Type} (P : Nat → List Token → α → Prop) (room : Nat) (ts : List Token)
    (p : α × List Token) : Prop :=
  ∃ n us, n ≤ room ∧ P n us p.1 ∧ ts = us ++ p.2

theorem derives_of_readSum {room : Nat} {ts : List Token} {p : Expr × List Token}
    (h : readSum room ts = .ok p) : Derives IsSum room ts p := by
  obtain ⟨n, us, hn, hus, hts, -⟩ := (reads_readSum room ts).ok p.1 p.2 h
  exact ⟨n, us, hn, hus, hts⟩

/-! ## What is derived is read -/

/-- The tokens may follow a product: they continue neither its last atom nor the product. -/
def EndsProduct (rest : List Token) : Prop :=
  EndsAtom rest ∧ ∀ t ∈ rest.head?, productOperator? t = none

/-- The tokens may follow a sum that is complete. -/
def EndsSum (rest : List Token) : Prop :=
  EndsProduct rest ∧ ∀ t ∈ rest.head?, sumOperator? t = none

theorem endsProduct_of_sumOperator? {t : Token} {op : Operator} (h : sumOperator? t = some op)
    (rest : List Token) : EndsProduct (t :: rest) := by
  refine ⟨endsAtom_of_sumOperator? h rest, ?_⟩
  rintro _ ⟨rfl⟩
  cases t <;> first | rfl | cases h

theorem endsSum_nil : EndsSum [] := by
  simp [EndsSum, EndsProduct, EndsAtom]

theorem endsSum_of_comma_or_closing {t : Token} (h : t = .comma ∨ t = .closing)
    (rest : List Token) : EndsSum (t :: rest) := by
  rcases h with rfl | rfl <;> simp [EndsSum, EndsProduct, EndsAtom, productOperator?, sumOperator?]

theorem readProductRest_of_endsProduct {room : Nat} {e : Expr} {rest : List Token}
    (h : EndsProduct rest) : readProductRest room e rest = .ok (e, rest) :=
  readProductRest_eq_ok h.2

theorem readSumRest_of_endsSum {room : Nat} {e : Expr} {rest : List Token} (h : EndsSum rest) :
    readSumRest room e rest = .ok (e, rest) :=
  readSumRest_eq_ok h.2

theorem IsAtom.head?_append_ne_minus {n : Nat} {ts rest : List Token} {e : Expr}
    (h : IsAtom n ts e) : (ts ++ rest).head? ≠ some .minus := by
  cases h with
  | number | cell | group => simp
  | emptyCall hname | call hname =>
    rintro ⟨rfl⟩
    cases hname

theorem parseRange?_append {first second : String} {start stop : Address} {t : Token}
    {rest : List Token} (hstart : Address.read first = .ok start)
    (hstop : Address.read second = .ok stop) (ht : t = .comma ∨ t = .closing) :
    (parseRange? ([.reference first, .colon, .reference second] ++ t :: rest)).map
      (·.map Parsed.read) = some (.ok (.range ⟨start, stop⟩, t :: rest)) := by
  have hends : endsRange t = false := by rcases ht with rfl | rfl <;> rfl
  simp [parseRange?, addressAt, hstart, hstop, hends, ht, Except.map, Parsed.read]

-- The grammar recurs on the left operand, and the parser loops over the right ones. So a sum or a
-- product is read as the left operand of whatever follows, and the other rules as a whole.
mutual

theorem IsSum.readSum_append {n : Nat} {ts : List Token} {e : Expr} (h : IsSum n ts e) :
    ∀ ⦃room rest⦄, n ≤ room → EndsProduct rest →
      readSum room (ts ++ rest) = readSumRest room e rest :=
  match h with
  | .product h => by
    intro room rest hn hrest
    rw [readSum_eq, h.readProduct_append hn hrest.1, readProductRest_of_endsProduct hrest]
    rfl
  | .operator hleft hop hright => by
    intro room rest hn hrest
    obtain ⟨hm, hn⟩ := Nat.max_le.1 hn
    rw [List.append_assoc, List.cons_append,
      hleft.readSum_append hm (endsProduct_of_sumOperator? hop _), readSumRest_cons, hop]
    simp only [hright.readProduct_append hn hrest.1, readProductRest_of_endsProduct hrest]
    rfl

theorem IsProduct.readProduct_append {n : Nat} {ts : List Token} {e : Expr}
    (h : IsProduct n ts e) : ∀ ⦃room rest⦄, n ≤ room → EndsAtom rest →
      readProduct room (ts ++ rest) = readProductRest room e rest :=
  match h with
  | .factor h => by
    intro room rest hn hrest
    rw [readProduct_eq, h.readFactor_append hn hrest]
    rfl
  | .operator hleft hop hright => by
    intro room rest hn hrest
    obtain ⟨hm, hn⟩ := Nat.max_le.1 hn
    rw [List.append_assoc, List.cons_append,
      hleft.readProduct_append hm (endsAtom_of_productOperator? hop _), readProductRest_cons, hop]
    simp only [hright.readFactor_append hn hrest]
    rfl

theorem IsFactor.readFactor_append {n : Nat} {ts : List Token} {e : Expr} (h : IsFactor n ts e) :
    ∀ ⦃room rest⦄, n ≤ room → EndsAtom rest → readFactor room (ts ++ rest) = .ok (e, rest) :=
  match h with
  | .atom h => by
    intro room rest hn hrest
    rw [readFactor_eq_readAtom h.head?_append_ne_minus]
    exact h.readAtom_append hn hrest
  | .negate h => by
    intro room rest hn hrest
    rw [List.cons_append, readFactor_minus, if_neg (by omega),
      h.readFactor_append (by omega) hrest]
    rfl

theorem IsAtom.readAtom_append {n : Nat} {ts : List Token} {e : Expr} (h : IsAtom n ts e) :
    ∀ ⦃room rest⦄, n ≤ room → EndsAtom rest → readAtom room (ts ++ rest) = .ok (e, rest) :=
  match h with
  | .number => by
    intro room rest hn hrest
    exact readAtom_number
  | .cell ha => by
    intro room rest hn hrest
    rw [List.singleton_append, readAtom_reference hrest, addressAt, ha]
    rfl
  | .group h => by
    intro room rest hn hrest
    have hends := endsSum_of_comma_or_closing (.inr rfl) rest
    have hread := h.readSum_append (Nat.le_sub_of_add_le hn) hends.1
    rw [readSumRest_of_endsSum hends] at hread
    rw [List.append_assoc, List.singleton_append, List.cons_append, readAtom_opening,
      if_neg (by omega), hread]
    rfl
  | .emptyCall hname => by
    intro room rest hn hrest
    rw [List.cons_append, List.cons_append, readAtom_call hname, if_neg (by omega)]
    rfl
  | .call hname hargs => by
    intro room rest hn hrest
    have hread : readArguments (room - callCost) (_ ++ .closing :: rest) = _ :=
      hargs.readArguments_append (Nat.le_sub_of_add_le hn)
    -- The first token of the arguments is no closing parenthesis, so they are not passed over.
    obtain ⟨t, us, rfl, ht⟩ := hargs.exists_cons
    rw [List.append_assoc, List.singleton_append, List.cons_append, List.cons_append,
      readAtom_call hname, if_neg (by omega), hread, if_neg (by simpa using ht)]
    rfl

theorem IsArguments.readArguments_append {n : Nat} {ts : List Token} {es : List Expr}
    (h : IsArguments n ts es) : ∀ ⦃room rest⦄, n ≤ room →
      readArguments room (ts ++ .closing :: rest) = .ok (es, .closing :: rest) :=
  match h with
  | .last h => by
    intro room rest hn
    rw [readArguments_eq, h.readArgument_append hn (.inr rfl)]
    rfl
  | .more h hmore => by
    intro room rest hn
    obtain ⟨hm, hn⟩ := Nat.max_le.1 hn
    rw [List.append_assoc, List.cons_append, readArguments_eq,
      h.readArgument_append hm (.inl rfl)]
    simp only [bind, Except.bind, hmore.readArguments_append hn]
    rfl

theorem IsArgument.readArgument_append {n : Nat} {ts : List Token} {e : Expr}
    (h : IsArgument n ts e) : ∀ ⦃room t rest⦄, n ≤ room → t = .comma ∨ t = .closing →
      readArgument room (ts ++ t :: rest) = .ok (e, t :: rest) :=
  match h with
  | .range hstart hstop => by
    intro room t rest hn ht
    obtain ⟨r, hr, hread⟩ := Option.map_eq_some_iff.1 (parseRange?_append hstart hstop ht)
    rw [readArgument_eq, hr]
    exact hread
  | .sum h => by
    intro room t rest hn ht
    -- A sum does not begin like a range, so the range that is tried first is none.
    have hends := endsSum_of_comma_or_closing ht rest
    rw [readArgument_eq, h.parseRange?_eq_none hends.1.1]
    simp only [h.readSum_append hn hends.1, readSumRest_of_endsSum hends]

end

/-! ## Whole lists of tokens -/

theorem parse_eq {room : Nat} {ts : List Token} :
    parse room ts = readSum room ts >>= fun p =>
      match p.2 with
      | [] => .ok p.1
      | rest => misfitAt (.expected .operatorOrEnd) rest := by
  unfold parse readSum
  cases parseSum room ts <;> rfl

/-- The parser accepts the sums of the grammar for whose derivation there is room, with the trees
of the derivations. -/
theorem parse_eq_ok_iff {room : Nat} {ts : List Token} {e : Expr} :
    parse room ts = .ok e ↔ ∃ n ≤ room, IsSum n ts e := by
  rw [parse_eq]
  constructor
  · -- what is read is derived, and nothing may be left
    intro h
    obtain ⟨p, hp, hend⟩ := exists_of_bind_eq_ok h
    obtain ⟨n, us, hn, hus, hts⟩ := derives_of_readSum hp
    split at hend
    · rename_i hnil
      obtain rfl := Except.ok.inj hend
      rw [hnil, List.append_nil] at hts
      exact ⟨n, hn, hts ▸ hus⟩
    · cases hend
  · -- what is derived is read, in front of the end
    rintro ⟨n, hn, h⟩
    have hread := h.readSum_append hn endsSum_nil.1
    rw [readSumRest_of_endsSum endsSum_nil, List.append_nil] at hread
    rw [hread]
    rfl

/-- A list of tokens has one tree, whatever the nesting of its derivations. -/
theorem IsSum.tree_unique {m n : Nat} {ts : List Token} {e e' : Expr} (h : IsSum m ts e)
    (h' : IsSum n ts e') : e = e' := by
  -- With room for both derivations the parser would return both trees.
  have hparse := parse_eq_ok_iff.2 ⟨m, Nat.le_max_left m n, h⟩
  have hparse' := parse_eq_ok_iff.2 ⟨n, Nat.le_max_right m n, h'⟩
  exact Except.ok.inj (hparse.symm.trans hparse')

/-- A misfit is a misplaced token, or a range that stands where a value is wanted. -/
theorem ParseFailure.exists_fault_eq (f : ParseFailure) (ts : List Located) (stop : Nat) :
    (∃ expected found position, f.fault ts stop = .misplacedToken expected found position) ∨
      ∃ text position, f.fault ts stop = .rangeAsValue text position := by
  unfold ParseFailure.fault
  cases f.misfit with
  | expected what =>
    simp only
    split
    · exact .inr ⟨_, _, rfl⟩
    · exact .inl ⟨_, _, _, rfl⟩
  | rangeAsOperand | rangeBeforeOperator => exact .inr ⟨_, _, rfl⟩
  | badReference | tooDeep => exact .inl ⟨_, _, _, rfl⟩

theorem ParseFailure.kind_fault (f : ParseFailure) (ts : List Located) (stop : Nat) :
    (f.fault ts stop).kind = .misplacedToken ∨ (f.fault ts stop).kind = .rangeAsValue := by
  rcases f.exists_fault_eq ts stop with ⟨_, _, _, h⟩ | ⟨_, _, h⟩
  · exact .inl (h ▸ rfl)
  · exact .inr (h ▸ rfl)

namespace Formula

variable {f : Formula} {ts : List Located}

theorem tree_eq_ok_iff (hts : f.tokens = .ok ts) {e : Expr} :
    f.tree = .ok e ↔ parse maxNesting (ts.map (·.token)) = .ok e := by
  unfold tree
  rw [hts]
  simp only
  cases parse maxNesting (ts.map (·.token)) <;> simp

/-- The tree of a formula that consists of one reference. -/
theorem tree_eq_cell {text : String} {position : Nat} {a : Address}
    (hts : f.tokens = .ok [⟨.reference text, position⟩]) (ha : Address.read text = .ok a) :
    f.tree = .ok (.cell a) := by
  have hsum : IsSum 0 [.reference text] (.cell a) := .product (.factor (.atom (.cell ha)))
  exact (tree_eq_ok_iff hts).2 (parse_eq_ok_iff.2 ⟨0, Nat.zero_le _, hsum⟩)

theorem exists_of_tree_ne_ok (hts : f.tokens = .ok ts) (h : ∀ e, f.tree ≠ .ok e) :
    ∃ fault, f.tree = .error fault ∧
      (fault.kind = .misplacedToken ∨ fault.kind = .rangeAsValue) := by
  unfold tree at h ⊢
  rw [hts] at h ⊢
  simp only at h ⊢
  cases hparse : parse maxNesting (ts.map (·.token)) with
  | error failure => exact ⟨_, rfl, failure.kind_fault ts _⟩
  | ok e =>
    rw [hparse] at h
    exact absurd rfl (h e)

/-- A formula has the tree that the grammar derives for its tokens, as long as there is room for
the derivation. The grammar derives no second tree, and a formula for which it derives none has a
fault of the grammar. -/
theorem tree_eq_ok_iff_isSum (hts : f.tokens = .ok ts) :
    (∀ e, f.tree = .ok e ↔ ∃ n ≤ maxNesting, IsSum n (ts.map (·.token)) e) ∧
      (∀ m n e e', IsSum m (ts.map (·.token)) e → IsSum n (ts.map (·.token)) e' → e = e') ∧
      ((∀ n e, ¬IsSum n (ts.map (·.token)) e) → ∃ fault, f.tree = .error fault ∧
        (fault.kind = .misplacedToken ∨ fault.kind = .rangeAsValue)) := by
  have htree : ∀ e, f.tree = .ok e ↔ ∃ n ≤ maxNesting, IsSum n (ts.map (·.token)) e :=
    fun e => (tree_eq_ok_iff hts).trans parse_eq_ok_iff
  refine ⟨htree, fun _ _ _ _ h h' => h.tree_unique h', fun hnone => ?_⟩
  refine exists_of_tree_ne_ok hts fun e he => ?_
  obtain ⟨n, -, h⟩ := (htree e).1 he
  exact hnone n e h

theorem tree_call :
    (⟨"=Max(A1:B2,-1)", some "="⟩ : Formula).tokens = .ok
        [⟨.name "Max", 0⟩, ⟨.opening, 3⟩, ⟨.reference "A1", 4⟩, ⟨.colon, 6⟩, ⟨.reference "B2", 7⟩,
          ⟨.comma, 9⟩, ⟨.minus, 10⟩, ⟨.number .one, 11⟩, ⟨.closing, 12⟩] ∧
      (⟨"=Max(A1:B2,-1)", some "="⟩ : Formula).tree =
        .ok (.call "max" [.range ⟨⟨0, 0⟩, ⟨1, 1⟩⟩, .negate (.number .one)]) := by
  have htokens : (⟨"=Max(A1:B2,-1)", some "="⟩ : Formula).tokens = .ok
      [⟨.name "Max", 0⟩, ⟨.opening, 3⟩, ⟨.reference "A1", 4⟩, ⟨.colon, 6⟩, ⟨.reference "B2", 7⟩,
        ⟨.comma, 9⟩, ⟨.minus, 10⟩, ⟨.number .one, 11⟩, ⟨.closing, 12⟩] := by cbv
  have hrange : IsArgument 0 [.reference "A1", .colon, .reference "B2"]
      (.range ⟨⟨0, 0⟩, ⟨1, 1⟩⟩) := .range rfl rfl
  have hminus : IsSum (0 + minusCost) [.minus, .number .one] (.negate (.number .one)) :=
    .product (.factor (.negate (.atom .number)))
  have hcall : IsAtom _ (.name "Max" :: .opening :: _ ++ [.closing]) (.call "max" _) :=
    .call rfl (.more hrange (.last (.sum hminus)))
  refine ⟨htokens, ((tree_eq_ok_iff_isSum htokens).1 _).2 ⟨_, ?_, .product (.factor (.atom hcall))⟩⟩
  decide

end Formula

end DecimalSheet
