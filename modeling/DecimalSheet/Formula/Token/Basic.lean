import DecimalSheet.Address.Basic
import DecimalSheet.Decimal.Notation

/-!
# Tokens

The tokens of a formula: numbers, names, references, operators and punctuation. A name that looks
like the text of an address is a reference; whether it is one, or the name of a function, depends
on what follows.

## Main definitions

* `Token`: the tokens
* `Token.text`, `Token.description`: a token as a formula and as a message shows it
* `Token.ofChar?`: the token of a single character
* `Located`: a token and its position
-/

namespace DecimalSheet

/-- A token of a formula. -/
inductive Token where
  | number (value : Decimal)
  /-- A name that does not look like an address. -/
  | name (text : String)
  /-- A name that looks like an address: letters, then digits. -/
  | reference (text : String)
  | plus
  | minus
  | times
  | divide
  | colon
  | comma
  | opening
  | closing
deriving DecidableEq

namespace Token

/-- The text of a token. A number has the text of its value. -/
def text : Token → String
  | number value => value.scientific
  | name text | reference text => text
  | plus => "+"
  | minus => "-"
  | times => "*"
  | divide => "/"
  | colon => ":"
  | comma => ","
  | opening => "("
  | closing => ")"

/-- A token as a message shows it. -/
def description (t : Token) : String := "'" ++ t.text ++ "'"

/-- The token that a character makes by itself. -/
def ofChar? : Char → Option Token
  | '+' => some plus
  | '-' => some minus
  | '*' => some times
  | '/' => some divide
  | ':' => some colon
  | ',' => some comma
  | '(' => some opening
  | ')' => some closing
  | _ => none

/-- The token looks like the text of an address. -/
def isReference : Token → Bool
  | reference _ => true
  | _ => false

/-- The token of a name. -/
def ofName (cs : List Char) : Token :=
  if Address.isCoordinate cs then reference (String.ofList cs) else name (String.ofList cs)

end Token

/-- A token and the number of characters before it. -/
structure Located where
  token : Token
  position : Nat
deriving DecidableEq

end DecimalSheet
