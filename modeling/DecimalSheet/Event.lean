import DecimalSheet.Decimal.Notation
import DecimalSheet.Fault

/-!
# Events

What happens while a grid is built and evaluated, as a log tells it.

## Main definitions

* `Event`: the events
* `Event.level`, `Event.message`: how much an event matters, and what the log says of it
* `Event.line`: an event as a line of a log
-/

namespace DecimalSheet

/-- How much an event matters. -/
inductive Level where
  | debug
  | info
  | warning
deriving DecidableEq

/-- The name of a level in a log. -/
def Level.text : Level → String
  | debug => "DEBUG"
  | info => "INFO"
  | warning => "WARNING"

/-- Something that happens while a grid is built or evaluated. -/
inductive Event where
  /-- A cell turns out to hold neither a number nor a formula. -/
  | unreadable (cell : Address) (error : CellError)
  /-- A grid has been built. -/
  | built (height width : Nat)
  /-- The formula of a cell is started. -/
  | started (cell : Address) (source : String)
  /-- The formula of a cell asks for the value of another cell. -/
  | needed (cell request : Address)
  /-- A cell has got its value. -/
  | evaluated (cell : Address) (value : Decimal)
  /-- A cell has failed. -/
  | failed (cell : Address) (error : CellError)
  /-- A cell that is being evaluated is asked for. -/
  | circular (cycle : List Address)
  /-- All cells have been evaluated. -/
  | completed (cells failures edges : Nat)

namespace Event

/-- How much an event matters. -/
def level : Event → Level
  | started .. | needed .. => .debug
  | built .. | evaluated .. | failed .. | completed .. => .info
  | unreadable .. | circular .. => .warning

/-- A cycle with its first cell once more at its end, or nothing for the empty cycle. -/
def cycleText (cycle : List Address) : String :=
  " -> ".intercalate ((cycle ++ cycle.take 1).map Address.text)

/-- What the log says of an event. -/
def message : Event → String
  | unreadable cell error => "Cell " ++ cell.text ++ " failed to build: " ++ error.text
  | built height width =>
    "Grid built, " ++ toString height ++ " rows, " ++ toString width ++ " columns"
  | started cell source => "Evaluating: " ++ cell.text ++ ", " ++ source
  | needed cell request => cell.text ++ " needs " ++ request.text
  | evaluated cell value => "Cell " ++ cell.text ++ " evaluated to '" ++ value.scientific ++ "'"
  | failed cell error => "Cell " ++ cell.text ++ " failed with " ++ error.fault.kind.name ++
      " from " ++ error.originText
  | circular cycle => "Circular reference: " ++ cycleText cycle
  | completed cells failures edges => "Grid evaluation done, " ++ toString cells ++ " cells, " ++
      toString failures ++ " failed, " ++ toString edges ++ " edges"

/-- An event as a line of a log. -/
def line (e : Event) : String := e.level.text ++ " " ++ e.message

end Event

end DecimalSheet
