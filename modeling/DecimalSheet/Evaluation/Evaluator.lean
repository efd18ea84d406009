import DecimalSheet.Evaluation.Bound
import DecimalSheet.Evaluation.Dependencies
import DecimalSheet.Evaluation.Outcome
import DecimalSheet.Evaluation.Program

/-!
# Evaluators

An evaluator finds the outcomes of the cells of a grid, and keeps every outcome that it has found.
A cell is evaluated when it is asked for, and cells that its formula asks for are evaluated first.
A cell that is asked for while it is being evaluated is a circular reference: it fails the cells
that wait, and so the cell itself.

The formulas that wait for values form a stack, on which an evaluation takes one turn after the
other: a turn goes on with one formula up to its end or its next request.

An evaluation may be given up for a reason that lies outside the cells. The cells on the stack then
stay in progress.

## Main definitions

* `Evaluator`: a grid, what its formulas may use, and the outcomes found so far
* `Evaluator.start`: the evaluator that has found nothing
* `Run`, `Run.turn`: an evaluation under way, and one turn of it
* `Evaluator.evaluate`, `Evaluator.evaluateAll`: evaluating a cell and all cells
-/

namespace DecimalSheet

/-- A grid under evaluation. -/
structure Evaluator where
  grid : Grid
  functions : Registry
  /-- The places after the point to which quotients are rounded. -/
  scale : Int
  /-- The status of the cells whose evaluation has begun. -/
  status : Std.TreeMap Address Status
  dependencies : Dependencies
  /-- The number of failures that have arisen. -/
  failureCount : Nat
  /-- What has happened, the last event first. -/
  history : List Event

/-- A cell whose formula waits for the value of another cell. -/
structure Frame where
  cell : Address
  next : Decimal → Program Decimal

/-- How far an evaluation has come. -/
inductive Phase where
  /-- The formula of a cell is computed, and the cells below wait, each for the one above. -/
  | running (cell : Address) (program : Program Decimal) (below : List Frame)
  /-- An outcome has been found for the topmost of the cells that wait. -/
  | returning (outcome : Outcome) (below : List Frame)
  /-- The evaluation has been given up. -/
  | aborted (reason : Abort)

/-- An evaluation under way. -/
structure Run where
  evaluator : Evaluator
  phase : Phase

namespace Evaluator

/-- The evaluator that has found nothing yet. -/
def start (grid : Grid) (functions : Registry) (scale : Int) : Evaluator where
  grid := grid
  functions := functions
  scale := scale
  status := ∅
  dependencies := .empty
  failureCount := 0
  history := []

/-! ## What an evaluator knows -/

/-- What formulas may use. -/
def setting (ev : Evaluator) : Setting where
  height := ev.grid.height
  width := ev.grid.width
  functions := ev.functions
  scale := ev.scale

/-- The state of a cell. -/
def state (ev : Evaluator) (a : Address) : CellState := .ofStatus? ev.status[a]?

/-- The outcome of a cell, if it has been found. -/
def outcome? (ev : Evaluator) (a : Address) : Option Outcome :=
  match ev.status[a]? with
  | some (.finished outcome) => some outcome
  | _ => none

/-- What has happened, in the order of time. -/
def events (ev : Evaluator) : List Event := ev.history.reverse

/-- The evaluator with nothing in its history. -/
def withoutHistory (ev : Evaluator) : Evaluator := { ev with history := [] }

/-! ## Steps -/

/-- Tells an event. -/
def note (ev : Evaluator) (event : Event) : Evaluator :=
  { ev with history := event :: ev.history }

/-- The failure that arises next, from a fault in a cell. -/
def nextFailure (ev : Evaluator) (fault : Fault) (cell : Address) : Failure :=
  ⟨fault, fault.ownOrigin?.getD cell, .evaluation ev.failureCount⟩

/-- One more failure has arisen. -/
def countFailure (ev : Evaluator) : Evaluator := { ev with failureCount := ev.failureCount + 1 }

/-- What is told of a cell that has got its outcome. -/
def outcomeEvent (cell : Address) : Outcome → Event
  | .ok value => .evaluated cell value
  | .error failure => .failed cell failure.error

/-- Keeps the outcome of a cell. -/
def keep (ev : Evaluator) (cell : Address) (outcome : Outcome) : Evaluator :=
  { ev with status := ev.status.insert cell (.finished outcome) }.note (outcomeEvent cell outcome)

/-- Keeps the outcome of a cell and hands it to the cells that wait. -/
def settle (ev : Evaluator) (cell : Address) (outcome : Outcome) (below : List Frame) : Run :=
  ⟨ev.keep cell outcome, .returning outcome below⟩

/-- A fault arises in a cell and ends its evaluation. -/
def settleFault (ev : Evaluator) (cell : Address) (fault : Fault) (below : List Frame) : Run :=
  ev.countFailure.settle cell (.error (ev.nextFailure fault cell)) below

/-- Hands a new failure to the cells that wait, and keeps it nowhere. -/
def refuse (ev : Evaluator) (cell : Address) (fault : Fault) (below : List Frame) : Run :=
  ⟨ev.countFailure, .returning (.error (ev.nextFailure fault cell)) below⟩

/-- Refuses a cell that is in progress, with the cycle that the dependencies show. -/
def refuseCircular (ev : Evaluator) (cell : Address) (below : List Frame) : Run :=
  (ev.note (.circular (ev.dependencies.findCycle cell))).refuse cell
    (.circular cell (ev.dependencies.findCycle cell)) below

/-- Starts the formula of a cell. -/
def startFormula (ev : Evaluator) (cell : Address) (source : String) (tree : Expr)
    (below : List Frame) : Run where
  evaluator := { ev with status := ev.status.insert cell .inProgress }.note (.started cell source)
  phase := .running cell (tree.program ev.setting Expr.maxHeight) below

/-- Starts a cell, which has not begun before. -/
def startCell (ev : Evaluator) (cell : Address) (content : Content) (below : List Frame) : Run :=
  match content with
  | .literal value => ev.settle cell (.ok value) below
  | .unreadable _ fault =>
    ev.settle cell (.error ⟨fault, fault.ownOrigin?.getD cell, .construction⟩) below
  | .formula f tree _ => ev.startFormula cell f.source tree below

/-- Asks for the value of a cell on behalf of the cells that wait. -/
def request (ev : Evaluator) (cell : Address) (below : List Frame) : Run :=
  match ev.status[cell]? with
  | some (.finished outcome) => ⟨ev, .returning outcome below⟩
  -- The cell keeps its status: it fails on its own when the failure gets down to it.
  | some .inProgress => ev.refuseCircular cell below
  | none =>
    match ev.grid.cell? cell with
    | some c => ev.startCell cell c.content below
    | none => ev.refuse cell (.outsideGrid cell) below

/-- One cell comes to depend on another. -/
def depend (ev : Evaluator) (precedent dependant : Address) : Evaluator :=
  { ev.note (.needed dependant precedent) with
    dependencies := ev.dependencies.record precedent dependant }

/-- Goes on with the formula of a cell up to its end or its next request. -/
def proceed (ev : Evaluator) (cell : Address) (program : Program Decimal) (below : List Frame) :
    Run :=
  match program with
  | .done value => ev.settle cell (.ok value) below
  | .raise (.fault fault) => ev.settleFault cell fault below
  -- Nothing is kept, and the cells on the stack stay in progress.
  | .raise (.abort reason) => ⟨ev, .aborted reason⟩
  | .ask a next => (ev.depend a cell).request a (⟨cell, next⟩ :: below)

end Evaluator

namespace Run

/-- One turn: the formula on top goes on, or the topmost of the cells that wait goes on with a
value or fails with a failure. -/
def turn (r : Run) : Run :=
  match r.phase with
  | .running cell program below => r.evaluator.proceed cell program below
  | .returning (.ok value) (frame :: below) =>
    r.evaluator.proceed frame.cell (frame.next value) below
  | .returning (.error failure) (frame :: below) =>
    r.evaluator.settle frame.cell (.error failure) below
  | .returning _ [] | .aborted _ => r

/-- Takes turns, at most the given number, until no cell waits or the evaluation is given up. -/
def complete (turns : Nat) (r : Run) : Evaluator × Except Abort Outcome :=
  match r.phase, turns with
  | .returning outcome [], _ => (r.evaluator, .ok outcome)
  | .aborted reason, _ => (r.evaluator, .error reason)
  -- The turns that the grid allows are enough, so this is never reached.
  | _, 0 => (r.evaluator, .error .stalled)
  | _, turns + 1 => r.turn.complete turns

end Run

namespace Evaluator

/-! ## Evaluation -/

/-- Evaluates a cell of the grid in at most the given number of turns. -/
def compute (ev : Evaluator) (turns : Nat) (a : Address) : Evaluator × Except Abort Outcome :=
  (ev.request a []).complete turns

/-- Evaluates a cell, which has to lie inside of the grid. -/
def evaluate (ev : Evaluator) (a : Address) : Evaluator × Except Raised Outcome :=
  if ev.grid.Contains a then
    match ev.compute ev.grid.turnBound a with
    | (ev, .ok outcome) => (ev, .ok outcome)
    | (ev, .error reason) => (ev, .error (.abort reason))
  else (ev, .error (.fault (.outsideGrid a)))

/-- Passes an evaluator through computations for the members of a list, in their order, until one
of them is given up. -/
def inTurn {α β : Type} (f : Evaluator → α → Evaluator × Except Abort β) (ev : Evaluator) :
    List α → Evaluator × Except Abort (List β)
  | [] => (ev, .ok [])
  | a :: as =>
    match f ev a with
    | (ev, .error reason) => (ev, .error reason)
    | (ev, .ok b) =>
      match inTurn f ev as with
      | (ev, .error reason) => (ev, .error reason)
      | (ev, .ok bs) => (ev, .ok (b :: bs))

/-- What is told when all cells have been evaluated. -/
def completedEvent (ev : Evaluator) (values : List (List Outcome)) : Event :=
  .completed ev.grid.size (values.flatten.filter fun o => !o.isOk).length ev.dependencies.edgeCount

/-- Evaluates all cells, in row-major order. -/
def evaluateAll (ev : Evaluator) : Evaluator × Except Abort (List (List Outcome)) :=
  match inTurn (inTurn (compute · ev.grid.turnBound ·)) ev ev.grid.rowAddresses with
  | (ev, .error reason) => (ev, .error reason)
  | (ev, .ok values) => (ev.note (ev.completedEvent values), .ok values)

end Evaluator

end DecimalSheet
