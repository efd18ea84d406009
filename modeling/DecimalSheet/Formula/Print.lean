import DecimalSheet.Formula.Expr
import DecimalSheet.Text.LetterCase

/-!
# Expressions as text

An expression has a canonical text: names and addresses in upper case, operators between spaces,
and parentheses only where an operand would otherwise be read differently. An operand is written
for the level that its place asks for, and stands in parentheses if its operator is of a lower
level.

## Main definitions

* `Operator.level?`, `Operator.level`, `Expr.negationLevel`: how tightly an operator binds
* `Expr.printed`: the text of an expression as an operand of a level
* `Expr.printedHeight`, `Expr.IsPrintable`: the height of an expression as far as it matters for
  printing
* `Expr.unprintable?`: why an expression has no text, if it has none
* `Expr.print`: the text of an expression, if it has one
-/

namespace DecimalSheet

/-- How tightly a unary minus binds its operand. -/
def Expr.negationLevel : Nat := 3

namespace Operator

/-- The symbol under which the unary minus stands in the table of levels. -/
def negationSymbol : String := "u"

/-- The level of an operator in the table of levels. A symbol that is no operator has one only if
it is that of the unary minus. -/
def level? : Operator → Option Nat
  | add | sub => some 1
  | mul | div => some 2
  | unknown symbol => if symbol = negationSymbol then some Expr.negationLevel else none

/-- How tightly an operator binds its operands. -/
def level (op : Operator) : Nat := op.level?.getD 0

end Operator

namespace Expr

mutual

/-- The text of an expression as an operand for which `outer` is the least level that needs no
parentheses. The right operand of an operator asks for a higher level than the operator has, so
operators of one level group to the left. -/
def printed (outer : Nat) : Expr → List Char
  | number value => value.plain.toList
  | cell a => a.text.toList
  | range r => r.text.toList
  | negate operand => '-' :: operand.printed negationLevel
  | binary op left right =>
    let text := left.printed op.level ++ ' ' :: op.symbol.toList ++
      ' ' :: right.printed (op.level + 1)
    if op.level < outer then '(' :: text ++ [')'] else text
  | call name args => (Text.upper name).toList ++ '(' :: printedArgs args ++ [')']
  | foreign value => value.quoted.toList

/-- The texts of arguments, with a comma and a space between them. -/
def printedArgs : List Expr → List Char
  | [] => []
  | [e] => e.printed 0
  | e :: es => e.printed 0 ++ ',' :: ' ' :: printedArgs es

end

/-- The number of nodes for which a call counts when it is printed: one for itself, one for joining
the texts of its arguments, and one for going from argument to argument. -/
def printedCallHeight : Nat := 3

mutual

/-- The number of nodes on the longest way down a tree that is printed, where a call counts for
`printedCallHeight` nodes. -/
def printedHeight : Expr → Nat
  | binary _ left right => max left.printedHeight right.printedHeight + 1
  | negate operand => operand.printedHeight + 1
  | call _ args => printedHeightAll args + printedCallHeight
  | _ => 1

/-- The greatest height of several expressions that are printed. -/
def printedHeightAll : List Expr → Nat
  | [] => 0
  | e :: es => max e.printedHeight (printedHeightAll es)

end

/-- The tree is not higher than trees may be that are printed. -/
def IsPrintable (e : Expr) : Prop := e.printedHeight ≤ maxHeight

instance (e : Expr) : Decidable e.IsPrintable := inferInstanceAs (Decidable (_ ≤ _))

mutual

/-- Why an expression has no text, if it has none: the first operator without a level or the first
foreign value in it, or the first node below `room` others, where a call counts for
`printedCallHeight` nodes. -/
def unprintable? (room : Nat) (e : Expr) : Option Abort :=
  match room with
  | 0 => some .tooDeep
  | room + 1 =>
    match e with
    | binary op left right =>
      -- The operator is looked at before its operands.
      if op.level? = none then some (.unknownOperator op.symbol)
      else left.unprintable? room <|> right.unprintable? room
    | negate operand => operand.unprintable? room
    | call _ args =>
      if room + 1 < printedCallHeight then some .tooDeep
      else unprintableArg? (room + 1 - printedCallHeight) args
    | foreign value => some (.unknownNode value)
    | _ => none

/-- Why one of several arguments has no text, if one has none. -/
def unprintableArg? (room : Nat) : List Expr → Option Abort
  | [] => none
  | e :: es => e.unprintable? room <|> unprintableArg? room es

end

/-- The canonical text of an expression as an operand of the level `outer`. -/
def print (e : Expr) (outer : Nat) : Except Abort String :=
  match e.unprintable? maxHeight with
  | some reason => .error reason
  | none => .ok (String.ofList (e.printed outer))

end Expr

end DecimalSheet
