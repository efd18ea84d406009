import DecimalSheet.Fault
import DecimalSheet.Function.Aggregate
import DecimalSheet.Text.LetterCase

/-!
# Reducers

A reducer takes the values of its arguments, in their order, to one value. It may fail with a
fault, and it may give up. A mark on a reducer tells under which name to register it and whether
it is to be called on no values.

## Main definitions

* `Reducer`: functions of lists of values
* `Mark`, `GridFunction`: the mark of a reducer, and a reducer with its mark
* `Reducer.guarded`: a reducer that fails on no values
* `GridFunction.sum`, `GridFunction.product`, `GridFunction.count`, `GridFunction.min`,
  `GridFunction.max`, `GridFunction.average`: the standard functions
-/

namespace DecimalSheet

/-- A function of the values of its arguments. -/
abbrev Reducer : Type := List Decimal → Except Raised Decimal

namespace Reducer

/-- A reducer that fails on no values, under the given name, without being run. -/
def guarded (name : String) (f : Reducer) : Reducer := fun vs =>
  if vs = [] then .error (.fault (.noValues (Text.upper name))) else f vs

end Reducer

/-- How a reducer is to be registered. -/
structure Mark where
  /-- The name of the function, in lower case. -/
  name : String
  /-- The function fails if it is called on no values. -/
  refusesEmpty : Bool

namespace Mark

/-- The name without the underscores at its end. -/
def stem (s : String) : String :=
  String.ofList (s.toList.reverse.dropWhile (· == '_')).reverse

/-- The mark of a reducer with a name of its own, for which another name may be given. -/
def ofName (given : Option String) (own : String) (refusesEmpty : Bool) : Mark :=
  ⟨Text.lower (match given with
    | none | some "" => stem own
    | some name => name), refusesEmpty⟩

/-- The reducer as its mark asks for it to be called. -/
def apply (m : Mark) (f : Reducer) : Reducer :=
  if m.refusesEmpty then f.guarded m.name else f

end Mark

/-- A reducer and its mark, if it has one. -/
structure GridFunction where
  run : Reducer
  mark : Option Mark

namespace GridFunction

/-! ## The standard functions -/

/-- The sum of the values. -/
def sum : GridFunction := ⟨fun vs => .ok (Aggregate.sum vs), some ⟨"sum", false⟩⟩

/-- The product of the values. -/
def product : GridFunction := ⟨fun vs => .ok (Aggregate.product vs), some ⟨"product", false⟩⟩

/-- The number of values. -/
def count : GridFunction := ⟨fun vs => .ok (Aggregate.count vs), some ⟨"count", false⟩⟩

/-- The least value. -/
def min : GridFunction :=
  ⟨fun vs => (Aggregate.least? vs).elim (.error (.abort .noMinimum)) .ok, some ⟨"min", true⟩⟩

/-- The greatest value. -/
def max : GridFunction :=
  ⟨fun vs => (Aggregate.greatest? vs).elim (.error (.abort .noMaximum)) .ok, some ⟨"max", true⟩⟩

/-- The mean of the values. -/
def average : GridFunction :=
  ⟨fun vs => (Aggregate.average? vs).elim (.error (.fault .divisionByZero)) .ok,
    some ⟨"average", true⟩⟩

end GridFunction

end DecimalSheet
