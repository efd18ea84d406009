import DecimalSheet.Formula.Parse

/-!
# The grammar of formulas

Which lists of tokens are sums, products, factors, atoms and arguments, and with which trees. The
rules are those of the grammar and nothing else: there is no order in which they are tried, no
token that is looked at in advance and no limit. The first index of each predicate is the nesting
of the derivation, that is, the room that its parentheses, calls and minus signs take up while
they are open.

## Main definitions

* `IsSum n ts e`, `IsProduct n ts e`, `IsFactor n ts e`, `IsAtom n ts e`: the tokens `ts` are of the
  rule, with the tree `e` and the nesting `n`
* `IsArguments n ts es`, `IsArgument n ts e`: the same for the arguments of a call

## Main results

* `IsSum.exists_cons`, `IsArguments.exists_cons`: no closing parenthesis stands in front
* `IsSum.parseRange?_eq_none`: no sum begins like a range
-/

namespace DecimalSheet

open DecimalSheet.Expr

mutual

/-- A sum: products with plus and minus signs between them, grouped to the left. -/
inductive IsSum : Nat → List Token → Expr → Prop
  | product {n ts e} (h : IsProduct n ts e) : IsSum n ts e
  | operator {m n ts us t op left right} (hleft : IsSum m ts left)
      (hop : sumOperator? t = some op) (hright : IsProduct n us right) :
      IsSum (max m n) (ts ++ t :: us) (.binary op left right)

/-- A product: factors with times and division signs between them, grouped to the left. -/
inductive IsProduct : Nat → List Token → Expr → Prop
  | factor {n ts e} (h : IsFactor n ts e) : IsProduct n ts e
  | operator {m n ts us t op left right} (hleft : IsProduct m ts left)
      (hop : productOperator? t = some op) (hright : IsFactor n us right) :
      IsProduct (max m n) (ts ++ t :: us) (.binary op left right)

/-- A factor: an atom after any number of minus signs. -/
inductive IsFactor : Nat → List Token → Expr → Prop
  | atom {n ts e} (h : IsAtom n ts e) : IsFactor n ts e
  | negate {n ts e} (h : IsFactor n ts e) : IsFactor (n + minusCost) (.minus :: ts) (.negate e)

/-- An atom: a number, a reference that can be read as an address, a sum in parentheses, or a call
with or without arguments. -/
inductive IsAtom : Nat → List Token → Expr → Prop
  | number {value} : IsAtom 0 [.number value] (.number value)
  | cell {text a} (h : Address.read text = .ok a) : IsAtom 0 [.reference text] (.cell a)
  | group {n ts e} (h : IsSum n ts e) : IsAtom (n + groupCost) (.opening :: ts ++ [.closing]) e
  | emptyCall {t name} (hname : functionName? t = some name) :
      IsAtom callCost [t, .opening, .closing] (.call name [])
  | call {t name n ts es} (hname : functionName? t = some name) (hargs : IsArguments n ts es) :
      IsAtom (n + callCost) (t :: .opening :: ts ++ [.closing]) (.call name es)

/-- Arguments with commas between them, at least one. -/
inductive IsArguments : Nat → List Token → List Expr → Prop
  | last {n ts e} (h : IsArgument n ts e) : IsArguments n ts [e]
  | more {m n ts us e es} (h : IsArgument m ts e) (hmore : IsArguments n us es) :
      IsArguments (max m n) (ts ++ .comma :: us) (e :: es)

/-- An argument: a range between two references that can be read as addresses, or a sum. -/
inductive IsArgument : Nat → List Token → Expr → Prop
  | range {first second start stop} (hstart : Address.read first = .ok start)
      (hstop : Address.read second = .ok stop) :
      IsArgument 0 [.reference first, .colon, .reference second] (.range ⟨start, stop⟩)
  | sum {n ts e} (h : IsSum n ts e) : IsArgument n ts e

end

/-! ## The first tokens -/

theorem IsAtom.exists_cons {n : Nat} {ts : List Token} {e : Expr} (h : IsAtom n ts e) :
    ∃ t us, ts = t :: us ∧ t ≠ .closing := by
  cases h with
  | number | cell | group => exact ⟨_, _, rfl, by simp⟩
  | emptyCall hname | call hname =>
    -- a parenthesis is not the name of a function
    refine ⟨_, _, rfl, ?_⟩
    rintro rfl
    cases hname

theorem IsFactor.exists_cons {n : Nat} {ts : List Token} {e : Expr} (h : IsFactor n ts e) :
    ∃ t us, ts = t :: us ∧ t ≠ .closing := by
  cases h with
  | atom h => exact h.exists_cons
  | negate => exact ⟨_, _, rfl, by simp⟩

theorem IsProduct.exists_cons {n : Nat} {ts : List Token} {e : Expr} (h : IsProduct n ts e) :
    ∃ t us, ts = t :: us ∧ t ≠ .closing := by
  cases h with
  | factor h => exact h.exists_cons
  | operator hleft =>
    -- the first token is that of the left operand
    obtain ⟨t, us, rfl, ht⟩ := hleft.exists_cons
    exact ⟨t, _, rfl, ht⟩

/-- A sum has a first token, and it is no closing parenthesis. -/
theorem IsSum.exists_cons {n : Nat} {ts : List Token} {e : Expr} (h : IsSum n ts e) :
    ∃ t us, ts = t :: us ∧ t ≠ .closing := by
  cases h with
  | product h => exact h.exists_cons
  | operator hleft =>
    obtain ⟨t, us, rfl, ht⟩ := hleft.exists_cons
    exact ⟨t, _, rfl, ht⟩

theorem IsArgument.exists_cons {n : Nat} {ts : List Token} {e : Expr} (h : IsArgument n ts e) :
    ∃ t us, ts = t :: us ∧ t ≠ .closing := by
  cases h with
  | range => exact ⟨_, _, rfl, by simp⟩
  | sum h => exact h.exists_cons

/-- Arguments have a first token, and it is no closing parenthesis. -/
theorem IsArguments.exists_cons {n : Nat} {ts : List Token} {es : List Expr}
    (h : IsArguments n ts es) : ∃ t us, ts = t :: us ∧ t ≠ .closing := by
  cases h with
  | last h => exact h.exists_cons
  | more h =>
    obtain ⟨t, us, rfl, ht⟩ := h.exists_cons
    exact ⟨t, _, rfl, ht⟩

/-- The tokens may follow an atom. An opening parenthesis would make a reference before it the name
of a function, and a colon the corner of a range. -/
def EndsAtom (rest : List Token) : Prop := ∀ t ∈ rest.head?, t ≠ .opening ∧ t ≠ .colon

theorem endsAtom_of_sumOperator? {t : Token} {op : Operator} (h : sumOperator? t = some op)
    (rest : List Token) : EndsAtom (t :: rest) := by
  rintro _ ⟨rfl⟩
  constructor <;> rintro rfl <;> cases h

theorem endsAtom_of_productOperator? {t : Token} {op : Operator}
    (h : productOperator? t = some op) (rest : List Token) : EndsAtom (t :: rest) := by
  rintro _ ⟨rfl⟩
  constructor <;> rintro rfl <;> cases h

theorem IsAtom.parseRange?_eq_none {n : Nat} {ts rest : List Token} {e : Expr}
    (h : IsAtom n ts e) (hrest : EndsAtom rest) : parseRange? (ts ++ rest) = none := by
  cases h with
  | number | group => rfl
  | cell =>
    -- only here the second token counts, and it is the first one of the rest
    cases rest with
    | nil => rfl
    | cons t rest => cases t <;> simp_all [parseRange?, EndsAtom]
  | emptyCall hname | call hname => simp [parseRange?]

theorem IsFactor.parseRange?_eq_none {n : Nat} {ts rest : List Token} {e : Expr}
    (h : IsFactor n ts e) (hrest : EndsAtom rest) : parseRange? (ts ++ rest) = none := by
  cases h with
  | atom h => exact h.parseRange?_eq_none hrest
  | negate => rfl

theorem IsProduct.parseRange?_eq_none {n : Nat} {ts rest : List Token} {e : Expr}
    (h : IsProduct n ts e) (hrest : EndsAtom rest) : parseRange? (ts ++ rest) = none := by
  cases h with
  | factor h => exact h.parseRange?_eq_none hrest
  | operator hleft hop =>
    rw [List.append_assoc]
    exact hleft.parseRange?_eq_none (endsAtom_of_productOperator? hop _)

/-- A sum does not begin like a range. -/
theorem IsSum.parseRange?_eq_none {n : Nat} {ts rest : List Token} {e : Expr}
    (h : IsSum n ts e) (hrest : EndsAtom rest) : parseRange? (ts ++ rest) = none := by
  cases h with
  | product h => exact h.parseRange?_eq_none hrest
  | operator hleft hop =>
    rw [List.append_assoc]
    exact hleft.parseRange?_eq_none (endsAtom_of_sumOperator? hop _)

end DecimalSheet
