import DecimalSheet.Formula.Basic
import DecimalSheet.Grid.Value

/-!
# Cells

A cell is built from a raw value. It holds a number, or a formula with its tree, or the fault that
keeps it from being either; a fault is kept in the cell and becomes its error when the cell is
evaluated, so every raw value makes a cell.

The tree of a formula may be replaced. The references of a formula are listed when they are first
asked for, and the list is kept even if the tree is replaced later.

## Main definitions

* `Content`, `Content.ofRaw`: what a cell holds, read from a raw value
* `Cell`, `Cell.ofRaw`: a cell of a grid
* `Cell.error?`: the error of a cell that could not be read
* `Cell.needed`, `Cell.listed`: the references of a formula, and the cell that keeps their list
* `Cell.withTree?`: the cell with another tree
-/

namespace DecimalSheet

/-- What a cell holds. -/
inductive Content where
  | literal (value : Decimal)
  /-- A formula, the tree by which it is evaluated, and the list of its references once it is
  kept. -/
  | formula (formula : Formula) (tree : Expr) (references : Option (List Reference))
  /-- Neither a number nor a formula with a tree, for the given reason. -/
  | unreadable (formula : Option Formula) (fault : Fault)

namespace Content

/-- The content of a cell without a formula: a number, if the raw value says one. -/
def ofLiteral (source : RawValue) : Content :=
  match Decimal.ofRaw source with
  | .ok value => literal value
  | .error fault => unreadable none fault

/-- The content of a cell with a formula: the formula with its tree, if it has one. -/
def ofFormula (f : Formula) : Content :=
  match f.tree with
  | .ok tree => formula f tree none
  | .error fault => unreadable (some f) fault

/-- The content of a cell with a raw value. A text with the marker is a formula, and any other
value is read as a literal. -/
def ofRaw (source : RawValue) (marker : Option String) : Content :=
  match source with
  | .text s => if Formula.isMarked marker s then ofFormula ⟨s, marker⟩ else ofLiteral source
  | _ => ofLiteral source

/-- The content with another tree. A tree that is missing gives the formula its own tree again, and
a formula that could not be read stays so. Without a formula there is no place for a tree. -/
def withTree? (content : Content) (tree : Expr) : Option Content :=
  match content, tree with
  | .formula f own references, .foreign .missing =>
    some (.formula f (f.tree.toOption.getD own) references)
  | .formula f _ references, tree => some (.formula f tree references)
  | .unreadable (some _) _, _ => some content
  | _, _ => none

end Content

/-- A cell of a grid, with the raw value from which it was built. -/
structure Cell where
  address : Address
  source : RawValue
  content : Content

namespace Cell

/-- The cell at an address with a raw value. -/
def ofRaw (address : Address) (source : RawValue) (marker : Option String) : Cell :=
  ⟨address, source, Content.ofRaw source marker⟩

/-- The cell holds a formula with a tree. -/
def isFormula (c : Cell) : Bool :=
  match c.content with
  | .formula .. => true
  | _ => false

/-- The number that the cell holds. -/
def value? (c : Cell) : Option Decimal :=
  match c.content with
  | .literal value => some value
  | _ => none

/-- The error of a cell that could not be read. It arose in the cell itself. -/
def error? (c : Cell) : Option CellError :=
  match c.content with
  | .unreadable _ fault => some ((CellError.ofFault fault).tag c.address)
  | _ => none

/-- The different references of the formula, none if there is no formula. The list that is kept
counts, and only without one the tree. -/
def needed (c : Cell) : Except Fault (List Reference) :=
  match c.content with
  | .formula _ _ (some references) => .ok references
  | .formula _ tree none => tree.needed
  | _ => .ok []

/-- The cell that keeps the list of its references, if it has one. -/
def listed (c : Cell) : Cell :=
  match c.content with
  | .formula f tree _ => { c with content := .formula f tree c.needed.toOption }
  | _ => c

theorem needed_listed (c : Cell) : c.listed.needed = c.needed := by
  unfold listed
  split
  · next f tree references h =>
    cases hn : c.needed with
    | ok references => rfl
    | error fault =>
      cases references with
      | some references => simp [needed, h] at hn
      | none => simpa [needed, h, Except.toOption] using hn
  · rfl

/-- The cell with another tree, if it has a formula. -/
def withTree? (c : Cell) (tree : Expr) : Option Cell :=
  (c.content.withTree? tree).map fun content => { c with content }

/-- What the cell holds, as a summary shows it. -/
def contentText (c : Cell) : String :=
  match c.content with
  | .literal value => value.scientific
  | .formula f .. => f.source
  | .unreadable _ fault => ((CellError.ofFault fault).tag c.address).text

/-- The cell as a summary shows it. -/
def summary (c : Cell) : String := c.address.text ++ " -> " ++ c.contentText

end Cell

end DecimalSheet
