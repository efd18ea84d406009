import DecimalSheet.Decimal.Notation
import DecimalSheet.Text.Quoted

/-!
# Raw values

What a data source may hand over for a cell, an address or a whole table before it has been looked
at: a text, a number, nothing at all, or a collection of these.

## Main definitions

* `RawValue`: the raw values
* `RawValue.display`, `RawValue.quoted`: a raw value as a message shows it, on its own and as a
  part of a collection
* `RawValue.kind`: the kind of a raw value as a message shows it
* `RawValue.isNothing`: whether a raw value counts as nothing
* `RawValue.items?`, `RawValue.elements`: the members of a collection, or of a text as well
* `RawValue.leaves`: the values that are not collections, from left to right
* `RawValue.distinct`: the members without those that occurred before
* `MembersError`: what a raw value is not fit for
-/

namespace DecimalSheet

/-- The two ways to write a sequence of raw values. -/
inductive Brackets where
  | square
  | round
deriving DecidableEq

/-- A value as a data source hands it over. -/
inductive RawValue where
  /-- The source holds nothing here. -/
  | missing
  | truth (b : Bool)
  | whole (n : Int)
  /-- A number that the source holds with places after the point. -/
  | real (d : Decimal)
  | text (s : String)
  | sequence (brackets : Brackets) (items : List RawValue)
  | record (entries : List (String × RawValue))
deriving Inhabited

namespace RawValue

/-! ## Display -/

/-- The digits without the zeros at their end. -/
def dropEndZeros (ds : List Char) : List Char :=
  (ds.reverse.dropWhile (· == '0')).reverse

/-- A number without the zeros at the end of its coefficient. -/
def shortened (d : Decimal) : Decimal :=
  let ds := Nat.toDigits 10 d.coefficient
  let significant := dropEndZeros ds
  ⟨d.negative, Nat.ofDigitChars 10 significant 0, d.exponent + (ds.length - significant.length)⟩

/-- A number with a power of ten, which has at least two digits. -/
def powerText (d : Decimal) (power : Int) : String :=
  let digits := Nat.toDigits 10 power.natAbs
  String.ofList (d.signText ++ Decimal.leadingDigit (Nat.toDigits 10 d.coefficient) ++
    'e' :: (if power < 0 then '-' else '+') :: List.replicate (2 - digits.length) '0' ++ digits)

/-- A real number as a message shows it: with a point and at least one digit after it, or with a
power of ten if the first digit stands more than four places after the point or more than sixteen
before it. -/
def realText (d : Decimal) : String :=
  let s := shortened d
  let power := d.exponent + (Nat.toDigits 10 d.coefficient).length - 1
  if d.coefficient = 0 then String.ofList (d.signText ++ ['0', '.', '0'])
  else if power < -4 ∨ 16 ≤ power then powerText s power
  else if s.exponent < 0 then s.plain
  else s.plain ++ ".0"

mutual

/-- A raw value as a part of a collection shows it: like on its own, but a text between quotes. -/
def quoted : RawValue → String
  | missing => "None"
  | truth b => if b then "True" else "False"
  | whole n => toString n
  | real d => realText d
  | text s => Text.quoted s
  | sequence .square items => "[" ++ ", ".intercalate (quotedAll items) ++ "]"
  | sequence .round [item] => "(" ++ item.quoted ++ ",)"
  | sequence .round items => "(" ++ ", ".intercalate (quotedAll items) ++ ")"
  | record entries => "\x7b" ++ ", ".intercalate (quotedEntries entries) ++ "\x7d"

/-- The texts of the members of a sequence. -/
def quotedAll : List RawValue → List String
  | [] => []
  | item :: items => item.quoted :: quotedAll items

/-- The texts of the entries of a record. -/
def quotedEntries : List (String × RawValue) → List String
  | [] => []
  | (name, value) :: entries => (Text.quoted name ++ ": " ++ value.quoted) :: quotedEntries entries

end

/-- A raw value as a message shows it on its own. -/
def display : RawValue → String
  | text s => s
  | v => v.quoted

/-- The kind of a raw value as a message shows it. -/
def kind : RawValue → String
  | missing => "NoneType"
  | truth _ => "bool"
  | whole _ => "int"
  | real _ => "float"
  | text _ => "str"
  | sequence .square _ => "list"
  | sequence .round _ => "tuple"
  | record _ => "dict"

/-- The value counts as nothing: it is missing, false, zero or empty. -/
def isNothing : RawValue → Bool
  | missing => true
  | truth b => !b
  | whole n => n == 0
  | real d => d.coefficient == 0
  | text s => s == ""
  | sequence _ items => items.isEmpty
  | record entries => entries.isEmpty

end RawValue

/-! ## Collections -/

/-- What a raw value is not fit for. -/
inductive MembersError where
  /-- The value has no members to be passed through. -/
  | notIterable (value : RawValue)
  /-- The value is a collection that cannot be looked up among others. -/
  | notHashable (value : RawValue)

/-- What a raw value is not fit for, as a message. -/
def MembersError.message : MembersError → String
  | notIterable value => "'" ++ value.kind ++ "' object is not iterable"
  | notHashable value => "unhashable type: '" ++ value.kind ++ "'"

namespace RawValue

/-- The members of a collection: the items of a sequence, or the names in a record. -/
def items? : RawValue → Option (List RawValue)
  | sequence _ items => some items
  | record entries => some (entries.map fun e => text e.1)
  | _ => none

/-- The members of a collection, or the characters of a text. -/
def elements : RawValue → Except MembersError (List RawValue)
  | text s => .ok (s.toList.map fun c => text c.toString)
  | v => v.items?.elim (.error (.notIterable v)) .ok

mutual

/-- The values inside nested collections, from left to right. -/
def leaves : RawValue → List RawValue
  | sequence _ items => leavesAll items
  | record entries => entries.map fun e => text e.1
  | v => [v]

/-- The leaves of the members of a sequence. -/
def leavesAll : List RawValue → List RawValue
  | [] => []
  | item :: items => item.leaves ++ leavesAll items

end

/-- The number of a raw value, if it is one. -/
def number? : RawValue → Option Decimal
  | whole n => some ⟨decide (n < 0), n.natAbs, 0⟩
  | real d => some d
  | truth b => some (Decimal.ofNat b.toNat)
  | _ => none

/-- Both are the same number or the same text. -/
def same : RawValue → RawValue → Bool
  | text s, text t => s == t
  | missing, missing => true
  | v, w =>
    match v.number?, w.number? with
    | some a, some b => decide (a.SameValue b)
    | _, _ => false

/-- A value that can be looked up among others: anything but a list or a record. -/
def lookedUp (v : RawValue) : Except MembersError RawValue :=
  match v with
  | sequence .square _ | record _ => .error (.notHashable v)
  | _ => .ok v

/-- The values in their order, each only where it occurs first. -/
def firsts (vs : List RawValue) : List RawValue :=
  vs.foldl (fun found v => if found.any (same v) then found else found ++ [v]) []

/-- The members of a value in their order, each only where it occurs first. -/
def distinct (v : RawValue) : Except MembersError (List RawValue) := do
  let members ← v.elements
  let members ← members.mapM lookedUp
  .ok (firsts members)

end RawValue

end DecimalSheet
