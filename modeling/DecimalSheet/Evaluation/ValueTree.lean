import DecimalSheet.Evaluation.Evaluator

/-!
# Value trees

The value of a cell, and below it the values of the cells for which it has asked, and so on. A cell
that is on the way down already is shown once more as a cycle, and not followed further.

A way down may lead past a limited number of cells, so the tree of a long chain of cells is given
up.

## Main definitions

* `Evaluator.treeLines`: the lines of the tree below a cell
* `Evaluator.valueTree`: the lines for a cell that is evaluated first
-/

namespace DecimalSheet.Evaluator

/-- The value of a cell as a table shows it, and nothing if there is none yet. -/
def valueText (ev : Evaluator) (a : Address) : String :=
  (ev.outcome? a).elim "" fun outcome => outcome.shown.text

/-- Blanks in front of a line. -/
def margin (indent : Int) : String := String.ofList (List.replicate indent.toNat ' ')

/-- The number of cells that a way down may lead past, the first and the last one included. It is
nominal, since whatever is under way already when a tree is shown takes up some of the same room. -/
def maxDepth : Nat := 1000

/-- The lines for a cell and for the cells for which it has asked, where `above` are the cells on
the way down to it, and the way may lead past `room` more cells. -/
def treeLines (ev : Evaluator) (room : Nat) (above : List Address) (indent : Int) (a : Address) :
    Except Abort (List String) :=
  match room with
  | 0 => .error .tooDeep
  | room + 1 =>
    if a ∈ above then .ok [margin indent ++ a.text ++ " <- cycle"]
    else do
      let below ← (ev.dependencies.precedents a).mapM
        (ev.treeLines room (above ++ [a]) (indent + 1))
      return (margin indent ++ a.text ++ " = " ++ ev.valueText a) :: below.flatten

/-- Evaluates a cell and shows the tree below it. -/
def valueTree (ev : Evaluator) (a : Address) (indent : Int) :
    Evaluator × Except Raised (List String) :=
  match ev.evaluate a with
  | (ev, .ok _) => (ev, (ev.treeLines maxDepth [] indent a).mapError .abort)
  | (ev, .error raised) => (ev, .error raised)

end DecimalSheet.Evaluator
