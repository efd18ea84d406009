import DecimalSheet.Fault

/-!
# Error reports

What is told of an error of a cell to someone who reads it: the kind of the fault, its details and
the cell. Every error of a cell has a report. A report may also be put together by hand, from the
name of a kind and the details in their order; it then keeps whatever it was given, even if no
error of a cell has such details.

## Main definitions

* `FaultKind.required`: the details that a report needs, in their order
* `ErrorReport`, `CellError.report`: reports, and the report of an error
* `ErrorReport.ofDetails`: a report that is put together by hand
* `ErrorReport.tag`, `ErrorReport.text`, `ErrorReport.summary`: the cell of a report, and a report
  as text

## Main results

* `CellError.message_report`: the report of an error says what the error says
-/

namespace DecimalSheet

namespace FaultKind

/-- The names of the details that a report of the kind needs, in their order. -/
def required : FaultKind → List String
  | general => ["message"]
  | invalidNumber => ["text"]
  | strayCharacter => ["position", "character"]
  | misplacedToken => ["expected", "found", "position"]
  | rangeAsValue => ["reference", "position"]
  | outsideGrid => ["reference"]
  | unknownFunction | noValues => ["name"]
  | divisionByZero => []
  | circular => ["address"]

end FaultKind

/-- What is told of an error of a cell. -/
structure ErrorReport where
  kind : FaultKind
  details : List (String × RawValue)
  /-- The cell in which the error arose, once it is known. -/
  origin : Option String

/-- Why details make no report. -/
inductive ReportError where
  /-- Details with these names are needed and not given. -/
  | tooFew (kind : FaultKind) (names : List String)
  /-- More details are given than the kind has. -/
  | tooMany (kind : FaultKind) (given : Nat)
  /-- The cycle is no collection. -/
  | cycle (error : MembersError)
  /-- The message is no text. -/
  | notAText (message : RawValue)

namespace ReportError

/-- Names in a row, with a word before the last one. -/
def enumeration : List String → String
  | [] => ""
  | [a] => a
  | [a, b] => a ++ " and " ++ b
  | names => ", ".intercalate names.dropLast ++ ", and " ++ names.getLastD ""

/-- What is wrong with details. -/
def message : ReportError → String
  | tooFew kind names =>
    kind.name ++ ".__init__() missing " ++ toString names.length ++
      " required positional argument" ++ (if names.length = 1 then "" else "s") ++ ": " ++
      enumeration (names.map fun name => "'" ++ name ++ "'")
  | tooMany kind given =>
    kind.name ++ ".__init__() takes from " ++ toString (kind.required.length + 1) ++ " to " ++
      toString (kind.required.length + 2) ++ " positional arguments but " ++ toString (given + 1) ++
      " were given"
  | cycle error => error.message
  | notAText message => "__str__ returned non-string (type " ++ message.kind ++ ")"

end ReportError

/-! ## Reports of errors -/

/-- The report of an error. -/
def CellError.report (e : CellError) : ErrorReport :=
  ⟨e.fault.kind, e.fault.details, e.origin.map Address.text⟩

namespace ErrorReport

/-- What the report says, without the cell. -/
def message (r : ErrorReport) : String := r.kind.message (detailText r.details)

/-- The code that stands for the error in a table. -/
def code (r : ErrorReport) : ErrorCode := r.kind.code

/-- Records the cell in which the error arose, unless one is recorded already. -/
def tag (r : ErrorReport) (a : Address) : ErrorReport :=
  { r with origin := r.origin <|> some a.text }

/-- What the report says after the cell in which the error arose. Without a cell the report has to
say a text. -/
def text (r : ErrorReport) : Except ReportError String :=
  match r.origin, r.details.lookup "message" with
  | some a, _ => .ok (a ++ ": " ++ r.message)
  | none, some (.text s) => .ok s
  | none, some value => .error (.notAText value)
  | none, none => .ok r.message

/-- The kind of the fault and the cell in which it arose. -/
def summary (r : ErrorReport) : String := r.kind.name ++ "<" ++ r.origin.getD "None" ++ ">"

/-! ## Reports by hand -/

/-- The text of a detail, if it is given. -/
def textOfRaw? : RawValue → Option String
  | .missing => none
  | v => some v.display

/-- The cycle that a raw value gives. There is none if it is left out. -/
def cycleOfRaw (given : Option RawValue) : Except ReportError RawValue :=
  match given with
  | none => .ok (.sequence .round [])
  | some v => (v.elements.mapError .cycle).map (.sequence .round)

/-- The report of a kind with the needed details `args` and a further detail, if it is given. -/
def ofParts (kind : FaultKind) (args : List RawValue) (further : Option RawValue) :
    Except ReportError ErrorReport := do
  let details := kind.required.zip args
  match kind with
  | .circular =>
    let cycle ← cycleOfRaw further
    .ok ⟨kind, details ++ [("cycle", cycle)], (args.head?).bind textOfRaw?⟩
  | _ => .ok ⟨kind, details, further.bind textOfRaw?⟩

/-- The report of a kind with details in their order. -/
def ofDetails (kind : FaultKind) (args : List RawValue) : Except ReportError ErrorReport :=
  let needed := kind.required.length
  if args.length < needed then .error (.tooFew kind (kind.required.drop args.length))
  else if needed + 1 < args.length then .error (.tooMany kind args.length)
  else ofParts kind (args.take needed) args[needed]?

end ErrorReport

theorem CellError.message_report (e : CellError) : e.report.message = e.fault.message := rfl

end DecimalSheet
