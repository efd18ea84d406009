import DecimalSheet.Text.Split
import Mathlib

/-!
# Texts that are cut where they were joined

Lines that are put together with line breaks between them are the lines of the text, and fields that
are put together with a separator between them are the fields of the text, up to the blank
characters that pad the separator. The lines must not be empty, since a text that ends in a line
break has no empty line after it.

## Main results

* `Text.lines_intercalate`: the lines of joined lines
* `Text.trim_padded`: padding is trimmed
* `Text.exists_trim`: nothing else is
* `Text.map_trim_fields_intercalate`: the trimmed fields of joined fields
-/

namespace DecimalSheet.Text

variable {c s : Char} {cs line before after left right sep : List Char} {ls : List (List Char)}

/-- What holds for the characters of a separator and of the texts holds for the joined texts. -/
theorem forall_mem_intercalate {P : Char → Prop} (hsep : ∀ c ∈ sep, P c)
    (hls : ∀ cs ∈ ls, ∀ c ∈ cs, P c) : ∀ c ∈ sep.intercalate ls, P c := by
  induction ls with
  | nil => exact List.forall_mem_nil _
  | cons cs ls ih =>
    obtain ⟨hcs, hrest⟩ := List.forall_mem_cons.1 hls
    cases ls with
    | nil => rwa [List.intercalate_singleton]
    | cons cs' ls =>
      rw [List.intercalate_cons_cons]
      exact List.forall_mem_append.2 ⟨List.forall_mem_append.2 ⟨hcs, hsep⟩, ih hrest⟩

/-- The first of the texts is a part of the joined texts. -/
theorem mem_intercalate_cons (hc : c ∈ cs) : c ∈ sep.intercalate (cs :: ls) := by
  cases ls with
  | nil => rwa [List.intercalate_singleton]
  | cons cs' ls =>
    rw [List.intercalate_cons_cons, List.append_assoc]
    exact List.mem_append_left _ hc

/-! ## Lines -/

theorem lines_cons (hc : isLineBreak c = false) (cs : List Char) :
    lines (c :: cs) = consFirst c (lines cs) := by
  have hne : c ≠ '\r' := by
    rintro rfl
    exact absurd hc (by decide)
  rw [lines]
  · rw [hc]
    rfl
  · rintro - rfl
    exact fun _ => hne rfl

theorem lines_append_cons (h : ∀ c ∈ line, isLineBreak c = false) (rest : List Char) :
    lines (line ++ '\n' :: rest) = line :: lines rest := by
  induction line with
  | nil => rfl
  | cons c line ih =>
    obtain ⟨hc, hline⟩ := List.forall_mem_cons.1 h
    rw [List.cons_append, lines_cons hc, ih hline]
    rfl

/-- A text without line breaks is one line, unless it is empty. -/
theorem lines_of_forall (h : ∀ c ∈ line, isLineBreak c = false) (hne : line ≠ []) :
    lines line = [line] := by
  induction line with
  | nil => exact absurd rfl hne
  | cons c line ih =>
    obtain ⟨hc, hline⟩ := List.forall_mem_cons.1 h
    rw [lines_cons hc]
    cases line with
    | nil => rfl
    | cons d line =>
      rw [ih hline (List.cons_ne_nil d line)]
      rfl

/-- Lines with line breaks between them are the lines of the text. -/
theorem lines_intercalate
    (h : ∀ line ∈ ls, line ≠ [] ∧ ∀ c ∈ line, isLineBreak c = false) :
    lines (['\n'].intercalate ls) = ls := by
  induction ls with
  | nil => rfl
  | cons line ls ih =>
    obtain ⟨⟨hne, hline⟩, hls⟩ := List.forall_mem_cons.1 h
    cases ls with
    | nil => rw [List.intercalate_singleton, lines_of_forall hline hne]
    | cons line' ls =>
      rw [List.intercalate_cons_cons, List.append_assoc, List.singleton_append,
        lines_append_cons hline, ih hls]

/-! ## Fields -/

/-- The blank characters around a text without blank characters are trimmed. -/
theorem trim_padded (hbefore : ∀ c ∈ before, isBlank c = true)
    (hafter : ∀ c ∈ after, isBlank c = true) (hcs : ∀ c ∈ cs, isBlank c = false) :
    trim (before ++ (cs ++ after)) = cs := by
  have hstart : (before ++ (cs ++ after)).dropWhile isBlank =
      if cs = [] then [] else cs ++ after := by
    rw [List.dropWhile_append_of_pos hbefore]
    cases cs with
    | nil => simpa using hafter
    | cons c cs => simp [hcs c List.mem_cons_self]
  rw [trim, hstart, trimEnd]
  split
  · rename_i h
    rw [h]
    rfl
  · have hstop : cs.reverse.dropWhile isBlank = cs.reverse := by
      refine List.dropWhile_eq_self_iff.2 fun hpos => ?_
      simp [hcs _ (List.getElem_mem _)]
    rw [List.reverse_append, List.dropWhile_append_of_pos (by simpa using hafter), hstop,
      List.reverse_reverse]

/-- A text is its trimmed part with blank characters around it. -/
theorem exists_trim (cs : List Char) : ∃ before after, cs = before ++ (trim cs ++ after) ∧
    (∀ c ∈ before, isBlank c = true) ∧ ∀ c ∈ after, isBlank c = true := by
  let rest := cs.dropWhile isBlank
  refine ⟨cs.takeWhile isBlank, (rest.reverse.takeWhile isBlank).reverse, ?_, ?_, ?_⟩
  · have hrest : trim cs ++ (rest.reverse.takeWhile isBlank).reverse = rest := by
      rw [trim, trimEnd, ← List.reverse_append, List.takeWhile_append_dropWhile,
        List.reverse_reverse]
    rw [hrest, List.takeWhile_append_dropWhile]
  · intro c hc
    exact List.mem_takeWhile_imp hc
  · intro c hc
    exact List.mem_takeWhile_imp (List.mem_reverse.1 hc)

/-- Fields with a padded separator between them are the fields of the text, once these are trimmed.
The first one may be padded too. -/
theorem map_trim_fields_intercalate {cells : List (List Char)} (hs : isBlank s = false)
    (hleft : ∀ c ∈ left, isBlank c = true) (hright : ∀ c ∈ right, isBlank c = true)
    (hbefore : ∀ c ∈ before, isBlank c = true)
    (hcells : ∀ cell ∈ cells, s ∉ cell ∧ ∀ c ∈ cell, isBlank c = false) (hne : cells ≠ []) :
    (fields s [] (before ++ (left ++ s :: right).intercalate cells)).map trim = cells := by
  have hpad : ∀ {pad : List Char}, (∀ c ∈ pad, isBlank c = true) → s ∉ pad :=
    fun hpad hmem => by simp [hpad s hmem] at hs
  induction cells generalizing before with
  | nil => exact absurd rfl hne
  | cons cell cells ih =>
    obtain ⟨⟨hcell, hblank⟩, hrest⟩ := List.forall_mem_cons.1 hcells
    cases cells with
    | nil =>
      have htrim : trim (before ++ cell) = cell := by
        simpa using trim_padded hbefore (List.forall_mem_nil _) hblank
      rw [List.intercalate_singleton, fields_of_not_mem (by simp [hpad hbefore, hcell]),
        List.map_singleton, htrim]
    | cons cell' cells =>
      -- The separator ends the first field, and what pads it on the right begins the next one.
      have hcut : before ++ (left ++ s :: right).intercalate (cell :: cell' :: cells) =
          (before ++ (cell ++ left)) ++
            s :: (right ++ (left ++ s :: right).intercalate (cell' :: cells)) := by
        rw [List.intercalate_cons_cons]
        simp
      rw [hcut, fields_append_cons (by simp [hpad hbefore, hpad hleft, hcell]), List.map_cons,
        trim_padded hbefore hleft hblank, ih hright hrest (List.cons_ne_nil _ _)]

end DecimalSheet.Text
