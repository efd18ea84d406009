import DecimalSheet.Address.Basic
import Std.Data.TreeMap
import Std.Data.TreeSet

/-!
# Dependencies

Which cells have asked for the value of which other cells. A cell that asks depends on the cell
that it asks for, which is a precedent of it.

To find a cycle through the dependencies, edges are walked from a cell to the cells that depend on
it, in the order in which those asked. No edge is walked twice. The walk goes on from the last cell
on its path that has an edge left, and a cycle is found when an edge leads back to the path.

## Main definitions

* `Dependencies`: the cells that have asked for the value of each cell
* `Dependencies.record`: a cell asks for the value of another
* `Dependencies.precedents`, `Dependencies.edges`: looking up
* `Dependencies.findCycle`: the first cycle on the walk from a cell

## Main results

* `Dependencies.mem_dependantsOf_record`: what recording adds
-/

namespace DecimalSheet

/-- The cells that have asked for the value of each cell, in the order in which they first did. -/
structure Dependencies where
  dependants : Std.TreeMap Address (List Address)

namespace Dependencies

/-- No cell has asked for any other. -/
def empty : Dependencies := ⟨∅⟩

/-- The cells that have asked for the value of a cell. -/
def dependantsOf (d : Dependencies) (a : Address) : List Address := d.dependants.getD a []

/-- A list with a further member at its end, unless it has that member. -/
def extend (as : List Address) (a : Address) : List Address := if a ∈ as then as else as ++ [a]

/-- A cell asks for the value of a precedent. -/
def record (d : Dependencies) (precedent dependant : Address) : Dependencies :=
  ⟨d.dependants.insert precedent (extend (d.dependantsOf precedent) dependant)⟩

theorem mem_dependantsOf_record {d : Dependencies} {p c a b : Address} :
    b ∈ (d.record p c).dependantsOf a ↔ b ∈ d.dependantsOf a ∨ (a = p ∧ b = c) := by
  unfold record dependantsOf extend
  rw [Std.TreeMap.getD_insert]
  split
  · rename_i h
    rw [Std.LawfulEqCmp.compare_eq_iff_eq] at h
    subst h
    split <;> simp_all
  · rename_i h
    rw [Std.LawfulEqCmp.compare_eq_iff_eq] at h
    simp [Ne.symm h]

/-- The cells whose values a cell has asked for, in row-major order. -/
def precedents (d : Dependencies) (a : Address) : List Address :=
  (d.dependants.toList.filter fun entry => entry.2.contains a).map (·.1)

/-- The edges from each cell to the cells that depend on it, cell by cell and in the order in which
those asked. -/
def walkedEdges (d : Dependencies) : List (Address × Address) :=
  d.dependants.toList.flatMap fun entry => entry.2.map (Prod.mk entry.1)

/-- The addresses in row-major order, each once. -/
def sorted (as : List Address) : List Address := (Std.TreeSet.ofList as).toList

/-- The edges from each cell to the cells that depend on it, in row-major order of both. -/
def edges (d : Dependencies) : List (Address × Address) :=
  d.dependants.toList.flatMap fun entry => (sorted entry.2).map (Prod.mk entry.1)

/-- The number of edges. -/
def edgeCount (d : Dependencies) : Nat := d.walkedEdges.length

/-! ## Cycles -/

/-- The part of a path, the last cell first, that begins with the given cell, in walking order. -/
def loopFrom (path : List Address) (a : Address) : List Address :=
  (path.takeWhile (· != a) ++ [a]).reverse

/-- Walks the unused edges from the end of a path, which is given the last cell first, until an
edge leads back to the path. Without such an edge there is no cycle, and the result is empty. -/
def walk (unused : List (Address × Address)) (path : List Address) : List Address :=
  match path with
  | [] => []
  | last :: before =>
    match _h : unused.find? (·.1 == last) with
    -- A dead end is left, and the walk goes on from the cell before it.
    | none => walk unused before
    | some edge =>
      if edge.2 ∈ last :: before then loopFrom (last :: before) edge.2
      else walk (unused.erase edge) (edge.2 :: last :: before)
-- A step back shortens the path, and a step forward uses up an edge.
termination_by 2 * unused.length + path.length
decreasing_by
  · simp
  · have hmem := List.mem_of_find?_eq_some _h
    have hpos := List.length_pos_of_mem hmem
    rw [List.length_erase_of_mem hmem]
    simp only [List.length_cons]
    omega

/-- The cells of the first cycle that is found on the walk from a cell. Each of them has been asked
for by the next one, and the last by the first. -/
def findCycle (d : Dependencies) (a : Address) : List Address := walk d.walkedEdges [a]

end Dependencies

end DecimalSheet
