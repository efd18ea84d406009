import DecimalSheet.Grid.Basic

/-!
# Bounds on requests

How often a formula asks for the value of a cell at most. Each mention of a cell asks once, and a
range once for each of its members, of which at most as many lie inside of the grid as it has
cells: the first member outside of the grid ends the formula.

## Main definitions

* `Expr.requestBound`: a bound for one expression
* `Grid.turnBound`: a bound on the turns of an evaluation
-/

namespace DecimalSheet

namespace Expr

mutual

/-- The most requests that an expression makes in a grid of `area` cells. -/
def requestBound (area : Nat) : Expr → Nat
  | cell _ => 1
  | binary _ left right => left.requestBound area + right.requestBound area
  | negate operand => operand.requestBound area
  | call _ args => argumentsBound area args
  | _ => 0

/-- The most requests that the arguments of a function make in a grid of `area` cells. -/
def argumentsBound (area : Nat) : List Expr → Nat
  | [] => 0
  | range r :: args => min r.size area + argumentsBound area args
  | e :: args => e.requestBound area + argumentsBound area args

end

end Expr

/-- The most turns that the formula of a cell takes in a grid of `area` cells: one for each
request, and one for the end. -/
def Cell.turnBound (area : Nat) (c : Cell) : Nat :=
  match c.content with
  | .formula _ tree _ => tree.requestBound area + 1
  | _ => 0

/-- The most turns that all formulas of a grid take together. -/
def Grid.turnBound (g : Grid) : Nat :=
  g.cells.foldr (fun c n => c.turnBound g.size + n) 0

end DecimalSheet
