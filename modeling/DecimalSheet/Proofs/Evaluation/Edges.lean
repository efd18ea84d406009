import DecimalSheet.Evaluation.Dependencies
import Mathlib

/-!
# Edges of dependencies

The precedents of a cell and the edges of the dependencies are listed in row-major order, each once.
Two such lists with the same members are equal, so the precedents are known as soon as it is known
which cells have been asked for.

## Main results

* `Dependencies.precedents_eq_sorted`: the precedents of a cell are the cells that it has asked for
* `Dependencies.mem_edges`: the edges lead from cells to those that have asked for them
-/

namespace DecimalSheet.Dependencies

variable {d : Dependencies} {as bs : List Address} {a b c : Address}

/-- The addresses are listed in row-major order, each once. -/
def IsSorted (as : List Address) : Prop := as.Pairwise fun a b => compare a b = .lt

theorem IsSorted.nodup (h : IsSorted as) : as.Nodup := by
  refine h.imp fun {a b} hlt hab => ?_
  rw [hab, Std.ReflOrd.compare_self] at hlt
  cases hlt

/-- Lists in row-major order with the same members are equal. -/
theorem IsSorted.eq_of_mem_iff (has : IsSorted as) (hbs : IsSorted bs)
    (h : ∀ a, a ∈ as ↔ a ∈ bs) : as = bs := by
  refine ((List.perm_ext_iff_of_nodup has.nodup hbs.nodup).2 h).eq_of_pairwise ?_ has hbs
  intro a b _ _ hlt hgt
  rw [Std.OrientedOrd.eq_swap, hgt] at hlt
  cases hlt

theorem isSorted_sorted (as : List Address) : IsSorted (sorted as) := Std.TreeSet.ordered_toList

@[simp] theorem mem_sorted : a ∈ sorted as ↔ a ∈ as := by
  rw [sorted, Std.TreeSet.mem_toList, Std.TreeSet.mem_ofList, List.contains_iff_mem]

/-- A cell has asked for another cell exactly if there is an entry that tells so. -/
theorem mem_dependantsOf_iff :
    c ∈ d.dependantsOf a ↔ ∃ cs, (a, cs) ∈ d.dependants.toList ∧ c ∈ cs := by
  rw [dependantsOf, Std.TreeMap.getD_eq_getD_getElem?]
  simp only [Std.TreeMap.mem_toList_iff_getElem?_eq_some]
  cases d.dependants[a]? <;> simp

theorem isSorted_precedents (d : Dependencies) (c : Address) : IsSorted (d.precedents c) :=
  List.pairwise_map.2 (Std.TreeMap.ordered_keys_toList.filter _)

@[simp] theorem mem_precedents : a ∈ d.precedents c ↔ c ∈ d.dependantsOf a := by
  simp [precedents, mem_dependantsOf_iff]

/-- The precedents of a cell are the cells that it has asked for. -/
theorem precedents_eq_sorted (h : ∀ a, c ∈ d.dependantsOf a ↔ a ∈ as) :
    d.precedents c = sorted as :=
  (isSorted_precedents d c).eq_of_mem_iff (isSorted_sorted as) fun a => by simp [h]

/-- The edges lead from cells to those that have asked for them. -/
theorem mem_edges : (a, b) ∈ d.edges ↔ b ∈ d.dependantsOf a := by
  simp [edges, mem_dependantsOf_iff]

end DecimalSheet.Dependencies
