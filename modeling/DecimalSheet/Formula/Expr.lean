import DecimalSheet.Address.Range
import DecimalSheet.Fault

/-!
# Expressions

The trees of formulas: numbers, references, operators and calls of functions. A range has a
meaning only as an argument of a call. Trees that were put together by hand may also hold
operators that are none and values that are no expressions; no formula has such a tree.

## Main definitions

* `Operator`, `Expr`: operators and expressions
* `Expr.nodes`: the subtrees, parents first and from left to right
* `Expr.height`: the number of nodes on the longest way down
* `Expr.references`: the references of an expression, in source order
* `Expr.same`: equality up to the form of numbers
-/

namespace DecimalSheet

/-- An operator between two operands. -/
inductive Operator where
  | add
  | sub
  | mul
  | div
  /-- A symbol that is no operator. -/
  | unknown (symbol : String)
deriving DecidableEq

/-- The symbol of an operator. -/
def Operator.symbol : Operator → String
  | add => "+"
  | sub => "-"
  | mul => "*"
  | div => "/"
  | unknown symbol => symbol

/-- The operator with the given symbol. -/
def Operator.ofSymbol : String → Operator
  | "+" => add
  | "-" => sub
  | "*" => mul
  | "/" => div
  | symbol => unknown symbol

/-- An expression. -/
inductive Expr where
  | number (value : Decimal)
  | cell (address : Address)
  | range (range : Range)
  | binary (op : Operator) (left right : Expr)
  | negate (operand : Expr)
  | call (name : String) (args : List Expr)
  /-- A value that is no expression. -/
  | foreign (value : RawValue)
deriving Inhabited

namespace Expr

/-- The most nodes that may lie on one way down a tree. The number is nominal, since whatever is
under way already when a tree is gone through takes up some of the same room. -/
def maxHeight : Nat := 1000

mutual

/-- The subtrees of an expression, the whole first and the others from left to right. -/
def nodes : Expr → List Expr
  | e@(binary _ left right) => e :: left.nodes ++ right.nodes
  | e@(negate operand) => e :: operand.nodes
  | e@(call _ args) => e :: nodesAll args
  | e => [e]

/-- The subtrees of several expressions, from left to right. -/
def nodesAll : List Expr → List Expr
  | [] => []
  | e :: es => e.nodes ++ nodesAll es

end

mutual

/-- The number of nodes on the longest way down a tree. -/
def height : Expr → Nat
  | binary _ left right => max left.height right.height + 1
  | negate operand => operand.height + 1
  | call _ args => heightAll args + 1
  | _ => 1

/-- The greatest height of several expressions. -/
def heightAll : List Expr → Nat
  | [] => 0
  | e :: es => max e.height (heightAll es)

end

/-- The tree is not higher than trees may be. -/
def IsShallow (e : Expr) : Prop := e.height ≤ maxHeight

instance (e : Expr) : Decidable e.IsShallow := inferInstanceAs (Decidable (_ ≤ _))

mutual

/-- The references of an expression, in source order. -/
def references : Expr → List Reference
  | cell a => [.cell a]
  | range r => [.range r]
  | binary _ left right => left.references ++ right.references
  | negate operand => operand.references
  | call _ args => referencesAll args
  | _ => []

/-- The references of several expressions, in source order. -/
def referencesAll : List Expr → List Reference
  | [] => []
  | e :: es => e.references ++ referencesAll es

end

/-- The different references of an expression, in the order in which they first occur. -/
def needed (e : Expr) : Except Fault (List Reference) :=
  if e.IsShallow then .ok e.references.eraseDups else .error .tooDeep

mutual

/-- Both expressions are the same, except that numbers may differ in form. -/
def same : Expr → Expr → Bool
  | number a, number b => decide (a.SameValue b)
  | cell a, cell b => a == b
  | range r, range s => r == s
  | binary op left right, binary op' left' right' =>
    op == op' && left.same left' && right.same right'
  | negate operand, negate operand' => operand.same operand'
  | call name args, call name' args' => name == name' && sameAll args args'
  | foreign v, foreign w => v.same w
  | _, _ => false

/-- Both lists consist of the same expressions, except that numbers may differ in form. -/
def sameAll : List Expr → List Expr → Bool
  | [], [] => true
  | e :: es, e' :: es' => e.same e' && sameAll es es'
  | _, _ => false

end

end Expr

end DecimalSheet
