import DecimalSheet.Address.Basic
import DecimalSheet.Decimal.Quotient

/-!
# Faults and errors

A fault is the reason why a cell has no value. Together with the cell in which it arose it is a
cell error, which takes the place of the value in that cell and in every cell that depends on it.
Besides, a computation may be aborted for a reason that lies outside the cells.

## Main definitions

* `ErrorCode`: the codes that stand for errors in a table
* `FaultKind`: the kinds of faults, with their codes and the wording of their messages
* `Fault`: the reasons why a cell has no value, with their details
* `CellError`: a fault and the cell in which it arose
* `Abort`, `Abort.message`: the reasons why a computation is given up
* `Raised`: a fault or a reason to give up

## Main results

* `ErrorCode.ofText?_text`: a code is known by its text
* `CellError.tag_origin`: an error keeps the origin that it has
-/

namespace DecimalSheet

/-! ## Codes -/

/-- The codes that stand for errors in a table. -/
inductive ErrorCode where
  | division
  | value
  | name
  | reference
  | circular
  | formula
deriving DecidableEq

namespace ErrorCode

/-- The text of a code. -/
def text : ErrorCode → String
  | division => "#DIV/0!"
  | value => "#VALUE!"
  | name => "#NAME?"
  | reference => "#REF!"
  | circular => "#CIRC!"
  | formula => "#ERROR!"

/-- All codes. -/
def all : List ErrorCode := [division, value, name, reference, circular, formula]

/-- The code with the given text. -/
def ofText? (s : String) : Option ErrorCode := all.find? fun c => c.text == s

theorem ofText?_text (c : ErrorCode) : ofText? c.text = some c := by
  cases c <;> decide

end ErrorCode

/-! ## Kinds of faults -/

/-- The kinds of reasons why a cell has no value. -/
inductive FaultKind where
  | general
  | invalidNumber
  | strayCharacter
  | misplacedToken
  | rangeAsValue
  | outsideGrid
  | unknownFunction
  | divisionByZero
  | circular
  | noValues
deriving DecidableEq

namespace FaultKind

/-- The name of a kind. -/
def name : FaultKind → String
  | general => "CellError"
  | invalidNumber => "InvalidNumber"
  | strayCharacter => "LexError"
  | misplacedToken => "ParseError"
  | rangeAsValue => "RangeInScalarContext"
  | outsideGrid => "ReferenceOutOfBounds"
  | unknownFunction => "UnknownFunction"
  | divisionByZero => "DivisionByZero"
  | circular => "CircularReference"
  | noValues => "EmptyRange"

/-- All kinds. -/
def all : List FaultKind :=
  [general, invalidNumber, strayCharacter, misplacedToken, rangeAsValue, outsideGrid,
    unknownFunction, divisionByZero, circular, noValues]

/-- The kind with the given name. -/
def ofName? (s : String) : Option FaultKind := all.find? fun k => k.name == s

theorem ofName?_name (k : FaultKind) : ofName? k.name = some k := by
  cases k <;> decide

/-- The code that stands for faults of the kind in a table. -/
def code : FaultKind → ErrorCode
  | general | strayCharacter | misplacedToken => .formula
  | invalidNumber | rangeAsValue => .value
  | outsideGrid => .reference
  | unknownFunction => .name
  | divisionByZero | noValues => .division
  | circular => .circular

/-- What a fault of the kind says, without the cell, where `detail` gives its details by their
names. -/
def message (k : FaultKind) (detail : String → String) : String :=
  match k with
  | general => detail "message"
  | invalidNumber => "Invalid number: '" ++ detail "text" ++ "'"
  | strayCharacter =>
    "Unexpected character '" ++ detail "character" ++ "' at position " ++ detail "position"
  | misplacedToken =>
    "Expected " ++ detail "expected" ++ ", found " ++ detail "found" ++ " at position " ++
      detail "position"
  | rangeAsValue =>
    "Range " ++ detail "reference" ++ " used as a value at position " ++ detail "position"
  | outsideGrid => "Reference " ++ detail "reference" ++ " is outside of the grid"
  | unknownFunction => "Unknown function: " ++ detail "name"
  | divisionByZero => "Division by zero"
  | circular => "Circular reference to " ++ detail "address"
  | noValues => detail "name" ++ " of no values"

end FaultKind

/-- The detail with a name, as a message shows it. -/
def detailText (details : List (String × RawValue)) (name : String) : String :=
  ((details.lookup name).getD .missing).display

/-! ## Faults -/

/-- The reason why a cell has no value. -/
inductive Fault where
  /-- A fault that has nothing but a message. -/
  | general (message : String)
  /-- The value is not a decimal literal. -/
  | invalidNumber (value : RawValue)
  /-- No token starts with the character. -/
  | strayCharacter (position : Nat) (character : Char)
  /-- The formula does not follow the grammar. -/
  | misplacedToken (expected found : String) (position : Nat)
  /-- A range stands anywhere but as an argument of a function. -/
  | rangeAsValue (reference : String) (position : Option Nat)
  /-- The address lies outside of the grid. -/
  | outsideGrid (reference : Address)
  /-- No function is registered under the name. -/
  | unknownFunction (name : String)
  | divisionByZero
  /-- The cell needs its own value, along the given cycle of cells if it is known. -/
  | circular (address : Address) (cycle : List Address)
  /-- The function with the name is not defined on no values. -/
  | noValues (name : String)
  /-- A fault that has been raised together with the cell in which it arose. -/
  | located (fault : Fault) (origin : Address)

namespace Fault

/-- The kind of the fault. -/
def kind : Fault → FaultKind
  | general _ => .general
  | invalidNumber _ => .invalidNumber
  | strayCharacter .. => .strayCharacter
  | misplacedToken .. => .misplacedToken
  | rangeAsValue .. => .rangeAsValue
  | outsideGrid _ => .outsideGrid
  | unknownFunction _ => .unknownFunction
  | divisionByZero => .divisionByZero
  | circular .. => .circular
  | noValues _ => .noValues
  | located fault _ => fault.kind

/-- The details of the fault, by their names. -/
def details : Fault → List (String × RawValue)
  | general message => [("message", .text message)]
  | invalidNumber value => [("text", value)]
  | strayCharacter position character =>
    [("position", .whole position), ("character", .text character.toString)]
  | misplacedToken expected found position =>
    [("expected", .text expected), ("found", .text found), ("position", .whole position)]
  | rangeAsValue reference position =>
    [("reference", .text reference), ("position", position.elim .missing fun n => .whole n)]
  | outsideGrid reference => [("reference", .text reference.text)]
  | unknownFunction name | noValues name => [("name", .text name)]
  | divisionByZero => []
  | circular address cycle =>
    [("address", .text address.text),
      ("cycle", .sequence .round (cycle.map fun a => .text a.text))]
  | located fault _ => fault.details

/-- The code that stands for the fault in a table. -/
def code (f : Fault) : ErrorCode := f.kind.code

/-- What the fault says, without the cell. -/
def message (f : Fault) : String := f.kind.message (detailText f.details)

/-- The fault of a formula that is nested more deeply than formulas may be. -/
def tooDeep : Fault := misplacedToken "a less deeply nested formula" "nesting too deep" 0

/-- The cell in which the fault arose, where the fault itself tells. -/
def ownOrigin? : Fault → Option Address
  | circular address _ => some address
  | located _ origin => some origin
  | _ => none

end Fault

/-! ## Errors of cells -/

/-- A fault and, once it is known, the cell in which it arose. -/
structure CellError where
  fault : Fault
  origin : Option Address

namespace CellError

/-- The error of a fault that has just arisen. -/
def ofFault (fault : Fault) : CellError := ⟨fault, fault.ownOrigin?⟩

/-- Records the cell in which the error arose, unless one is recorded already. -/
def tag (e : CellError) (a : Address) : CellError :=
  { e with origin := e.origin <|> some a }

theorem tag_origin {e : CellError} {a b : Address} (h : e.origin = some a) :
    (e.tag b).origin = some a := by simp [tag, h]

/-- The message of the fault after the cell in which it arose. -/
def text (e : CellError) : String :=
  match e.origin with
  | none => e.fault.message
  | some a => a.text ++ ": " ++ e.fault.message

/-- The cell in which the error arose, as a message shows it. -/
def originText (e : CellError) : String := e.origin.elim "None" Address.text

end CellError

/-! ## Given up computations -/

/-- The reason why a computation is given up without a value or a fault of a cell. -/
inductive Abort where
  /-- A reducer asked for a value that it was not given. -/
  | missingValue
  /-- The least of no values was asked for. -/
  | noMinimum
  /-- The greatest of no values was asked for. -/
  | noMaximum
  /-- A tree holds something that is no expression. -/
  | unknownNode (value : RawValue)
  /-- A tree holds an operator that is none. -/
  | unknownOperator (symbol : String)
  /-- A quotient is too large for the numbers in which it is to be computed. -/
  | quotientTooLarge
  /-- A tree is higher than trees may be. -/
  | tooDeep
  /-- A run took more turns than it was allowed. -/
  | stalled

/-- What a reason says. -/
def Abort.message : Abort → String
  | missingValue => "tuple index out of range"
  | noMinimum => "min() arg is an empty sequence"
  | noMaximum => "max() arg is an empty sequence"
  | unknownNode value => "Unknown expression node: " ++ value.quoted
  | unknownOperator symbol => Text.quoted symbol
  | quotientTooLarge => "integer division result too large for a float"
  | tooDeep | stalled => ""

/-- What may come instead of a value. -/
inductive Raised where
  | fault (fault : Fault)
  | abort (reason : Abort)

/-- What comes instead of a quotient. -/
def Raised.ofQuotientError : QuotientError → Raised
  | .zeroDivisor => fault .divisionByZero
  | .tooLarge => abort .quotientTooLarge

end DecimalSheet
