/-!
# Columns

A column has letters and an index. The letters count in base twenty-six with digits from `A` for
one to `Z` for twenty-six and without a zero, so `Z` is followed by `AA`; the index of `A` is zero.

## Main definitions

* `Column.letters`: the letters of an index
* `Column.index`, `Column.index?`: the index of letters in either case
-/

namespace DecimalSheet.Column

/-- The letter at a place in the alphabet, from zero for `A`. -/
def letter (n : Nat) : Char := Char.ofNat ('A'.toNat + n)

/-- The letters of the column with an index. -/
def letters (n : Nat) : List Char :=
  if n < 26 then [letter n] else letters (n / 26 - 1) ++ [letter (n % 26)]
termination_by n
decreasing_by omega

/-- The value of a letter as a digit, from one for `A` in either case. -/
def digit (c : Char) : Nat := c.toUpper.toNat - 'A'.toNat + 1

/-- The index of the column with the given letters. -/
def index (cs : List Char) : Nat :=
  cs.foldl (fun n c => n * 26 + digit c) 0 - 1

/-- The index of the column with the given name, which has to consist of letters. -/
def index? (s : String) : Option Nat :=
  if s.toList ≠ [] ∧ s.toList.all Char.isAlpha then some (index s.toList) else none

end DecimalSheet.Column
