import DecimalSheet.Formula.Parse

/-!
# Faults of parsing

A misfit in a list of tokens becomes a fault with a position and a text, for which the tokens
around it are looked at. A colon that fits nowhere is the middle of a range that stands where a
value is wanted.

## Main definitions

* `Expected.text`: what the grammar asks for, as a message shows it
* `ParseFailure.index`: the number of tokens before a misfit
* `ParseFailure.fault`: the fault of a misfit among located tokens
-/

namespace DecimalSheet

/-- What the grammar asks for, as a message shows it. -/
def Expected.text : Expected → String
  | operand => "a number, cell reference, function or ("
  | operatorOrEnd => "an operator or end of formula"
  | closing => "')'"
  | commaOrClosing => "',' or ')'"
  | reference => "a cell reference"

/-- The end of a formula as a message shows it. -/
def endDescription : String := "end of formula"

/-- The text of the references and colons among some tokens. -/
def rangeText (ts : List Located) : String :=
  String.join <| (ts.filter fun t => t.token.isReference || t.token == .colon).map (·.token.text)

namespace ParseFailure

/-- The number of tokens before the misfit. -/
def index (f : ParseFailure) (ts : List Located) : Nat := ts.length - f.remaining

/-- The position of the token with an index, or of the end. -/
def positionAt (ts : List Located) (stop i : Nat) : Nat := (ts[i]?.elim stop (·.position))

/-- The token with an index, or the end, as a message shows it. -/
def descriptionAt (ts : List Located) (i : Nat) : String :=
  ts[i]?.elim endDescription (·.token.description)

/-- The fault of a misfit among the tokens `ts` of a text with `stop` characters. -/
def fault (f : ParseFailure) (ts : List Located) (stop : Nat) : Fault :=
  let i := f.index ts
  let position := positionAt ts stop i
  match f.misfit with
  | .expected what =>
    if ts[i]?.any (·.token == .colon) then
      .rangeAsValue (rangeText ((ts.take (i + 2)).drop (i - 1))) (some position)
    else .misplacedToken what.text (descriptionAt ts i) position
  | .rangeAsOperand => .rangeAsValue (rangeText ((ts.drop i).take 3)) (some position)
  | .rangeBeforeOperator range => .rangeAsValue range.text (some position)
  | .badReference => .misplacedToken Expected.reference.text (descriptionAt ts i) position
  | .tooDeep => .tooDeep

end ParseFailure

end DecimalSheet
