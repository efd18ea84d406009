import DecimalSheet.Grid.Value

/-!
# Outcomes

What comes of evaluating a cell: a number or a failure. A failure that spreads to the cells that
depend on it stays the same failure, and two failures that arose separately are different ones even
if they say the same.

## Main definitions

* `Failure`, `Outcome`: the failure of a cell, and its number or failure
* `Outcome.shown`: the value that an outcome puts in a table
* `Status`: how far the evaluation of a cell has come once it has begun
* `CellState`: how far it has come, in a word
-/

namespace DecimalSheet

/-- What tells two failures of one origin apart. -/
inductive Occurrence where
  /-- The cell could not be read when the grid was built. -/
  | construction
  /-- The failure with a number, counted from zero, that arose during evaluation. -/
  | evaluation (number : Nat)
deriving DecidableEq

/-- A fault that has arisen in a cell. -/
structure Failure where
  fault : Fault
  origin : Address
  occurrence : Occurrence

/-- The error that a failure is: its fault, and the cell in which it arose. -/
def Failure.error (f : Failure) : CellError := ⟨f.fault, some f.origin⟩

/-- A number or a failure. -/
abbrev Outcome : Type := Except Failure Decimal

/-- The value that an outcome puts in a table: the number, or the code of the fault. -/
def Outcome.shown (o : Outcome) : TableValue := o.mapError fun failure => failure.fault.code

/-- How far the evaluation of a cell has come once it has begun. -/
inductive Status where
  | inProgress
  | finished (outcome : Outcome)

/-- How far the evaluation of a cell has come, in a word. -/
inductive CellState where
  | notStarted
  | inProgress
  | done
  | failed
deriving DecidableEq

/-- The state as a summary shows it. -/
def CellState.text : CellState → String
  | notStarted => "not started"
  | inProgress => "in progress"
  | done => "done"
  | failed => "failed"

/-- The state of a cell with a status, or of one whose evaluation has not begun. -/
def CellState.ofStatus? : Option Status → CellState
  | none => notStarted
  | some .inProgress => inProgress
  | some (.finished (.ok _)) => done
  | some (.finished (.error _)) => failed

end DecimalSheet
