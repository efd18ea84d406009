import DecimalSheet.Formula.Diagnosis
import DecimalSheet.Formula.Print
import DecimalSheet.Formula.Token.Scan

/-!
# Formulas

A formula is a text with a marker in front of an expression. Its tokens, its tree and its
canonical text are functions of the text.

## Main definitions

* `Formula`: a text and the marker of formulas
* `Formula.isMarked`: whether a text is marked as a formula
* `Formula.body`, `Formula.tokens`, `Formula.tree`: the text after the marker, its tokens and its
  expression
* `Formula.canonical`: the canonical text of an expression as a formula
-/

namespace DecimalSheet

/-- A text that is to be read as a formula. -/
structure Formula where
  /-- The text with its marker. -/
  source : String
  /-- The text in front of formulas, if formulas are marked. -/
  marker : Option String

namespace Formula

/-- The text starts with a marker that is not empty. -/
def isMarked (marker : Option String) (source : String) : Bool :=
  match marker with
  | some m => m != "" && m.toList.isPrefixOf source.toList
  | none => false

/-- The text after the marker, or the whole text if it is not marked. -/
def body (f : Formula) : String :=
  if isMarked f.marker f.source then
    String.ofList (f.source.toList.drop (f.marker.getD "").length)
  else f.source

/-- The tokens of the formula, or its first lexical fault. -/
def tokens (f : Formula) : Except Fault (List Located) := Token.scan f.body

/-- The expression of the formula, or its fault. -/
def tree (f : Formula) : Except Fault Expr :=
  match f.tokens with
  | .error fault => .error fault
  | .ok ts =>
    match Expr.parse Expr.maxNesting (ts.map (·.token)) with
    | .error failure => .error (failure.fault ts f.body.length)
    | .ok e => .ok e

/-- The canonical text of an expression, as a formula with a marker. -/
def canonicalOf (marker : Option String) (e : Expr) : Except Abort String :=
  (e.print 0).map (marker.getD "None" ++ ·)

/-- The formula has the same tree, up to the form of numbers, as the formula with its canonical
text. -/
def isReparsed (f : Formula) (canonical : String) : Except Fault Bool := do
  let e ← f.tree
  let again ← tree ⟨canonical, f.marker⟩
  .ok (again.same e)

/-- The formula as a summary shows it. -/
def summary (f : Formula) : String := "GridFormula(" ++ f.source ++ ")"

end Formula

end DecimalSheet
