import DecimalSheet.Fault
import DecimalSheet.Formula.Token.Basic

/-!
# The tokens of a text

A text is cut into lexemes from left to right, each as long as possible, and blank characters
between them are passed over. A number is a run of digits and points that has to be a literal; a
name starts with a letter and goes on with letters, digits, underscores and points.

## Main definitions

* `Token.scanFrom`, `Token.scan`: the tokens of a text, or its first fault
-/

namespace DecimalSheet.Token

/-- A character of a number: a digit or a point. -/
def isNumeric (c : Char) : Bool := c.isDigit || c == '.'

/-- A character of a name after its first letter. -/
def isNameRest (c : Char) : Bool := c.isAlphanum || c == '_' || c == '.'

/-- The tokens of the text `cs`, which starts at the given position. -/
def scanFrom (position : Nat) (cs : List Char) : Except Fault (List Located) :=
  match cs with
  | [] => .ok []
  | c :: rest =>
    if Text.isBlank c then scanFrom (position + 1) rest
    else
      match ofChar? c with
      | some t => (scanFrom (position + 1) rest).map (⟨t, position⟩ :: ·)
      | none =>
        if isNumeric c then
          -- The run ends where no digit and no point follows, even if it is no number.
          let run := c :: rest.takeWhile isNumeric
          match Decimal.ofLiteral? (String.ofList run) with
          | none => .error (.invalidNumber (.text (String.ofList run)))
          | some d =>
            (scanFrom (position + run.length) (rest.dropWhile isNumeric)).map
              (⟨number d, position⟩ :: ·)
        else if c.isAlpha then
          let run := c :: rest.takeWhile isNameRest
          (scanFrom (position + run.length) (rest.dropWhile isNameRest)).map
            (⟨ofName run, position⟩ :: ·)
        else .error (.strayCharacter position c)
termination_by cs.length
decreasing_by
  · simp
  · simp
  · have := (List.dropWhile_sublist isNumeric (l := rest)).length_le
    simp only [List.length_cons]; omega
  · have := (List.dropWhile_sublist isNameRest (l := rest)).length_le
    simp only [List.length_cons]; omega

/-- The tokens of a text, or its first fault. -/
def scan (s : String) : Except Fault (List Located) := scanFrom 0 s.toList

end DecimalSheet.Token
