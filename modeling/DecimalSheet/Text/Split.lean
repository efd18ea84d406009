import DecimalSheet.Text.Blank

/-!
# Lines, fields and words

The three ways to cut a text: into the lines that line breaks end, into the fields that a
separator stands between, and into the words that blank characters stand between.

## Main definitions

* `lines`: the lines of a text, without their line breaks
* `fields`: the pieces between the occurrences of a separator, taken from left to right
* `words`: the maximal runs of characters that are not blank

## Main results

* `fields_of_not_mem`: a text without the separator is one field
* `fields_append_cons`: a one-character separator cuts at its first occurrence
-/

namespace DecimalSheet.Text

/-- Puts a character in front of the first of several pieces. -/
def consFirst (c : Char) : List (List Char) → List (List Char)
  | [] => [[c]]
  | p :: ps => (c :: p) :: ps

/-- The lines of a text. A line break ends a line, and what follows the last one is a line only
if it is not empty. -/
def lines : List Char → List (List Char)
  | [] => []
  | '\r' :: '\n' :: cs => [] :: lines cs
  | c :: cs => if isLineBreak c then [] :: lines cs else consFirst c (lines cs)

/-- The pieces between the occurrences of the separator `s :: sep`. An occurrence begins where the
one before it has ended or later. -/
def fields (s : Char) (sep : List Char) (cs : List Char) : List (List Char) :=
  match cs with
  | [] => [[]]
  | c :: cs =>
    if (s :: sep).isPrefixOf (c :: cs) then [] :: fields s sep (cs.drop sep.length)
    else consFirst c (fields s sep cs)
termination_by cs.length
decreasing_by all_goals (simp only [List.length_cons, List.length_drop]; omega)

/-- The maximal runs of characters that are not blank. -/
def words (cs : List Char) : List (List Char) :=
  match _h : cs.dropWhile isBlank with
  | [] => []
  | c :: rest => (c :: rest.takeWhile (!isBlank ·)) :: words (rest.dropWhile (!isBlank ·))
termination_by cs.length
decreasing_by
  have hsuffix := (List.dropWhile_sublist (!isBlank ·) (l := rest)).length_le
  have hdrop := (List.dropWhile_sublist isBlank (l := cs)).length_le
  rw [_h, List.length_cons] at hdrop
  omega

theorem fields_of_not_mem {s : Char} {cs : List Char} (h : s ∉ cs) : fields s [] cs = [cs] := by
  induction cs with
  | nil => rw [fields]
  | cons c cs ih =>
    rw [List.mem_cons, not_or] at h
    have hne : (s == c) = false := by simpa using h.1
    rw [fields]
    simp [List.isPrefixOf, hne, ih h.2, consFirst]

theorem fields_append_cons {s : Char} {cs : List Char} (h : s ∉ cs) (rest : List Char) :
    fields s [] (cs ++ s :: rest) = cs :: fields s [] rest := by
  induction cs with
  | nil => rw [List.nil_append, fields]; simp [List.isPrefixOf]
  | cons c cs ih =>
    rw [List.mem_cons, not_or] at h
    have hne : (s == c) = false := by simpa using h.1
    rw [List.cons_append, fields]
    simp [List.isPrefixOf, hne, ih h.2, consFirst]

end DecimalSheet.Text
