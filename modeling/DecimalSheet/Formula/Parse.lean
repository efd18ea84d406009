import DecimalSheet.Formula.Expr
import DecimalSheet.Formula.Token.Basic
import DecimalSheet.Text.LetterCase

/-!
# The expression of a list of tokens

Formulas follow this grammar.

    sum      = product (('+' | '-') product)*
    product  = factor (('*' | '/') factor)*
    factor   = '-' factor | atom
    atom     = number | reference | '(' sum ')' | name '(' [argument (',' argument)*] ')'
    argument = reference ':' reference | sum

A name or a reference before a parenthesis is the name of a function. The parser looks at the
tokens alone, not at their positions, and tells of a misfit how many tokens were left. Each
function returns the tokens after the part that it has read, with the proof that there are fewer
of them, which makes the recursion well-founded. Parentheses, calls and minus signs that are open
at the same time take up room, of which there is a limited amount.

## Main definitions

* `Misfit`, `ParseFailure`: what does not fit the grammar, and where
* `Expr.parseSum`, `Expr.parseProduct`, `Expr.parseFactor`, `Expr.parseAtom`,
  `Expr.parseArguments`, `Expr.parseArgument`: one function for each rule
* `Expr.parse`: the expression of a whole list of tokens
-/

namespace DecimalSheet

/-- What the grammar asks for at a place. -/
inductive Expected where
  | operand
  | operatorOrEnd
  | closing
  | commaOrClosing
  | reference
deriving DecidableEq

/-- What does not fit the grammar. -/
inductive Misfit where
  /-- The next token is not of the kind that is asked for. -/
  | expected (what : Expected)
  /-- The next token is the first corner of a range, which is no operand. -/
  | rangeAsOperand
  /-- At the next token begins an argument that is a range followed by an operator. -/
  | rangeBeforeOperator (range : Range)
  /-- The next token looks like an address but is none. -/
  | badReference
  /-- There is no room for what is opened here. -/
  | tooDeep
deriving DecidableEq

/-- A misfit and the number of tokens from it to the end. -/
structure ParseFailure where
  misfit : Misfit
  remaining : Nat
deriving DecidableEq

namespace Expr

/-- What a rule reads from the tokens `ts`: a tree and fewer tokens after it. -/
structure Parsed (α : Type) (ts : List Token) where
  value : α
  rest : List Token
  shorter : rest.length < ts.length

/-- What a chain of operators adds to its first operand: a tree and not more tokens after it. -/
structure Extended (ts : List Token) where
  value : Expr
  rest : List Token
  notLonger : rest.length ≤ ts.length

/-- The room that parentheses, calls and minus signs may take up together while they are open. The
number is nominal, since whatever is under way already when a formula is parsed takes up some of the
same room. -/
def maxNesting : Nat := 1000

/-- The room that a parenthesis takes up. -/
def groupCost : Nat := 4

/-- The room that a call takes up. -/
def callCost : Nat := 6

/-- The room that a minus sign takes up. -/
def minusCost : Nat := 1

/-- A misfit at the first of the tokens `ts`. -/
def misfitAt {α : Type} (m : Misfit) (ts : List Token) : Except ParseFailure α :=
  .error ⟨m, ts.length⟩

/-- The operator between the operands of a sum that a token stands for. -/
def sumOperator? : Token → Option Operator
  | .plus => some .add
  | .minus => some .sub
  | _ => none

/-- The operator between the operands of a product that a token stands for. -/
def productOperator? : Token → Option Operator
  | .times => some .mul
  | .divide => some .div
  | _ => none

/-- The name of the function that a token before a parenthesis calls, in lower case. -/
def functionName? : Token → Option String
  | .name text | .reference text => some (Text.lower text)
  | _ => none

/-- The token continues a range to an operand, which a range cannot be. -/
def endsRange : Token → Bool
  | .plus | .minus | .times | .divide | .colon => true
  | _ => false

/-- The address at the front of tokens that start with the reference `text`. -/
def addressAt (text : String) (ts : List Token) : Except ParseFailure Address :=
  match Address.read text with
  | .ok a => .ok a
  | .error _ => misfitAt .badReference ts

/-- A range at the front of an argument, if there is one: a reference and a colon begin it. -/
def parseRange? (ts : List Token) : Option (Except ParseFailure (Parsed Expr ts)) :=
  match ts with
  | .reference first :: .colon :: rest =>
    some <|
      match addressAt first (.reference first :: .colon :: rest) with
      | .error e => .error e
      | .ok start =>
        match rest with
        | .reference second :: after =>
          match addressAt second (.reference second :: after) with
          | .error e => .error e
          | .ok stop =>
            match after with
            | t :: after' =>
              -- Before an operator the range is what is wrong, and not the operator.
              if endsRange t then
                misfitAt (.rangeBeforeOperator ⟨start, stop⟩)
                  (.reference first :: .colon :: .reference second :: t :: after')
              else if t = .comma ∨ t = .closing then
                .ok ⟨.range ⟨start, stop⟩, t :: after', by simp only [List.length_cons]; omega⟩
              else misfitAt (.expected .commaOrClosing) (t :: after')
            | [] => misfitAt (.expected .commaOrClosing) []
        | rest => misfitAt (.expected .reference) rest
  | _ => none

mutual

/-- Reads a sum: products with plus and minus signs between them, grouped to the left. -/
def parseSum (room : Nat) (ts : List Token) : Except ParseFailure (Parsed Expr ts) :=
  match parseProduct room ts with
  | .error e => .error e
  | .ok p =>
    match parseSumRest room p.value p.rest with
    | .error e => .error e
    | .ok q => .ok ⟨q.value, q.rest, Nat.lt_of_le_of_lt q.notLonger p.shorter⟩
termination_by 6 * ts.length + 3
decreasing_by
  · omega
  · have := p.shorter; omega

/-- Reads the plus and minus signs after the sum `left`, with the products after them. -/
def parseSumRest (room : Nat) (left : Expr) (ts : List Token) :
    Except ParseFailure (Extended ts) :=
  match ts with
  | [] => .ok ⟨left, [], Nat.le_refl _⟩
  | t :: rest =>
    match sumOperator? t with
    | none => .ok ⟨left, t :: rest, Nat.le_refl _⟩
    | some op =>
      match parseProduct room rest with
      | .error e => .error e
      | .ok p =>
        match parseSumRest room (.binary op left p.value) p.rest with
        | .error e => .error e
        | .ok q => .ok ⟨q.value, q.rest, by
            have := p.shorter; have := q.notLonger; simp only [List.length_cons]; omega⟩
termination_by 6 * ts.length
decreasing_by
  · simp only [List.length_cons]; omega
  · have := p.shorter; simp only [List.length_cons]; omega

/-- Reads a product: factors with times and division signs between them, grouped to the left. -/
def parseProduct (room : Nat) (ts : List Token) : Except ParseFailure (Parsed Expr ts) :=
  match parseFactor room ts with
  | .error e => .error e
  | .ok p =>
    match parseProductRest room p.value p.rest with
    | .error e => .error e
    | .ok q => .ok ⟨q.value, q.rest, Nat.lt_of_le_of_lt q.notLonger p.shorter⟩
termination_by 6 * ts.length + 2
decreasing_by
  · omega
  · have := p.shorter; omega

/-- Reads the times and division signs after the product `left`, with the factors after them. -/
def parseProductRest (room : Nat) (left : Expr) (ts : List Token) :
    Except ParseFailure (Extended ts) :=
  match ts with
  | [] => .ok ⟨left, [], Nat.le_refl _⟩
  | t :: rest =>
    match productOperator? t with
    | none => .ok ⟨left, t :: rest, Nat.le_refl _⟩
    | some op =>
      match parseFactor room rest with
      | .error e => .error e
      | .ok p =>
        match parseProductRest room (.binary op left p.value) p.rest with
        | .error e => .error e
        | .ok q => .ok ⟨q.value, q.rest, by
            have := p.shorter; have := q.notLonger; simp only [List.length_cons]; omega⟩
termination_by 6 * ts.length
decreasing_by
  · simp only [List.length_cons]; omega
  · have := p.shorter; simp only [List.length_cons]; omega

/-- Reads a factor: an atom after any number of minus signs. -/
def parseFactor (room : Nat) (ts : List Token) : Except ParseFailure (Parsed Expr ts) :=
  match ts with
  | .minus :: rest =>
    if room < minusCost then misfitAt .tooDeep (.minus :: rest)
    else
      match parseFactor (room - minusCost) rest with
      | .error e => .error e
      | .ok p => .ok ⟨.negate p.value, p.rest, by
          have := p.shorter; simp only [List.length_cons]; omega⟩
  | ts => parseAtom room ts
termination_by 6 * ts.length + 1
decreasing_by
  · simp only [List.length_cons]; omega
  · omega

/-- Reads an atom: a number, a sum in parentheses, a call, or a reference that is not the first
corner of a range. -/
def parseAtom (room : Nat) (ts : List Token) : Except ParseFailure (Parsed Expr ts) :=
  match ts with
  | .number value :: rest => .ok ⟨.number value, rest, by simp⟩
  | .opening :: rest =>
    if room < groupCost then misfitAt .tooDeep (.opening :: rest)
    else
      match parseSum (room - groupCost) rest with
      | .error e => .error e
      | .ok p =>
        match h : p.rest with
        | .closing :: after => .ok ⟨p.value, after, by
            have := p.shorter; simp only [h, List.length_cons] at this ⊢; omega⟩
        | after => misfitAt (.expected .closing) after
  -- Before a parenthesis a reference is the name of a function, too.
  | t :: .opening :: rest =>
    match functionName? t with
    | none => misfitAt (.expected .operand) (t :: .opening :: rest)
    | some name =>
      if room < callCost then misfitAt .tooDeep (t :: .opening :: rest)
      else
        -- Either there are no arguments at all, or there is one before each comma.
        match rest with
        | .closing :: after => .ok ⟨.call name [], after, by simp only [List.length_cons]; omega⟩
        | rest =>
          match parseArguments (room - callCost) rest with
          | .error e => .error e
          | .ok p =>
            match h : p.rest with
            | .closing :: after => .ok ⟨.call name p.value, after, by
                have := p.shorter; simp only [h, List.length_cons] at this ⊢; omega⟩
            | after => misfitAt (.expected .commaOrClosing) after
  -- Arguments that are ranges do not get here.
  | .reference first :: .colon :: rest =>
    misfitAt .rangeAsOperand (.reference first :: .colon :: rest)
  | .reference text :: rest =>
    match addressAt text (.reference text :: rest) with
    | .error e => .error e
    | .ok a => .ok ⟨.cell a, rest, by simp⟩
  | ts => misfitAt (.expected .operand) ts
termination_by 6 * ts.length
decreasing_by
  · simp only [List.length_cons]; omega
  · simp only [List.length_cons]; omega

/-- Reads arguments with commas between them, at least one. -/
def parseArguments (room : Nat) (ts : List Token) :
    Except ParseFailure (Parsed (List Expr) ts) :=
  match parseArgument room ts with
  | .error e => .error e
  | .ok p =>
    match h : p.rest with
    | .comma :: after =>
      match parseArguments room after with
      | .error e => .error e
      | .ok q => .ok ⟨p.value :: q.value, q.rest, by
          have := p.shorter; have := q.shorter; simp only [h, List.length_cons] at *; omega⟩
    | after => .ok ⟨[p.value], after, h ▸ p.shorter⟩
termination_by 6 * ts.length + 5
decreasing_by
  · omega
  · have := p.shorter; simp only [h, List.length_cons] at this; omega

/-- Reads an argument: a range, or a sum. -/
def parseArgument (room : Nat) (ts : List Token) : Except ParseFailure (Parsed Expr ts) :=
  match parseRange? ts with
  | some r => r
  | none => parseSum room ts
termination_by 6 * ts.length + 4
decreasing_by omega

end

/-- The expression of a whole list of tokens. -/
def parse (room : Nat) (ts : List Token) : Except ParseFailure Expr :=
  match parseSum room ts with
  | .error e => .error e
  | .ok p =>
    match p.rest with
    | [] => .ok p.value
    | rest => misfitAt (.expected .operatorOrEnd) rest

end Expr

end DecimalSheet
