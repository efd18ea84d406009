import DecimalSheet.Text.Blank
import DecimalSheet.Text.LetterCase
import Mathlib

/-!
# Letters, digits and runs of them

Names and numbers are runs of letters and digits. These are all from the ASCII block, which is so
small that a property of its characters can be checked for each of them.

## Main definitions

* `IsAscii cs`: all characters of a text are from the ASCII block

## Main results

* `takeWhile_append_run`, `dropWhile_append_run`: a run at the front of a text
* `forall_ascii`: what holds for the first 128 characters holds for all of the ASCII block
* `apply_toLower`: what does not depend on the case of a character
* `lower_upper`, `lower_lower`, `upper_lower`: one case after another
-/

namespace DecimalSheet.Text

variable {c : Char} {cs rest : List Char} {p : Char → Bool}

/-! ## Runs -/

theorem takeWhile_append_run (hcs : ∀ c ∈ cs, p c = true) (hrest : ∀ c ∈ rest.head?, p c = false) :
    (cs ++ rest).takeWhile p = cs := by
  rw [List.takeWhile_append_of_pos hcs]
  cases rest with
  | nil => simp
  | cons c rest => simp [hrest c (by simp)]

theorem dropWhile_append_run (hcs : ∀ c ∈ cs, p c = true) (hrest : ∀ c ∈ rest.head?, p c = false) :
    (cs ++ rest).dropWhile p = rest := by
  rw [List.dropWhile_append_of_pos hcs]
  cases rest with
  | nil => rfl
  | cons c rest => simp [hrest c (by simp)]

/-! ## The ASCII block -/

/-- What holds for the first 128 characters holds for all of the ASCII block. -/
theorem forall_ascii {P : Char → Prop} (h : ∀ n : Fin 128, P (Char.ofNat n)) (hc : c.toNat < 128) :
    P c := by
  have hchar := h ⟨c.toNat, hc⟩
  rwa [Char.ofNat_toNat] at hchar

theorem toNat_lt_of_isAlphanum (h : c.isAlphanum = true) : c.toNat < 128 := by
  have htoNat : c.toNat = c.val.toNat := rfl
  simp [Char.isAlphanum, Char.isAlpha, Char.isUpper, Char.isLower, Char.isDigit,
    UInt32.le_iff_toNat_le] at h
  omega

theorem isAlphanum_of_isAlpha (h : c.isAlpha = true) : c.isAlphanum = true := by
  simp [Char.isAlphanum, h]

theorem isAlphanum_of_isDigit (h : c.isDigit = true) : c.isAlphanum = true := by
  simp [Char.isAlphanum, h]

theorem isDigit_of_mem_toDigits {n : Nat} : ∀ c ∈ Nat.toDigits 10 n, c.isDigit = true :=
  fun _ => Nat.isDigit_of_mem_toDigits (by decide) (by decide)

theorem isBlank_of_isAlphanum (h : c.isAlphanum = true) : isBlank c = false := by
  -- Letters and digits are from the ASCII block, so it is enough to look there.
  have hall : ∀ n : Fin 128, (Char.ofNat n).isAlphanum = true → isBlank (Char.ofNat n) = false := by
    decide
  exact forall_ascii (P := fun c => c.isAlphanum = true → isBlank c = false) hall
    (toNat_lt_of_isAlphanum h) h

theorem isAlpha_of_isDigit (h : c.isDigit = true) : c.isAlpha = false := by
  have hall : ∀ n : Fin 128, (Char.ofNat n).isDigit = true → (Char.ofNat n).isAlpha = false := by
    decide
  exact forall_ascii (P := fun c => c.isDigit = true → c.isAlpha = false) hall
    (toNat_lt_of_isAlphanum (isAlphanum_of_isDigit h)) h

/-! ## Letter case -/

/-- All characters of the text are from the ASCII block. -/
def IsAscii (cs : List Char) : Prop := ∀ c ∈ cs, c.toNat < 128

theorem toUpper_ascii (h : c.toNat < 128) :
    c.toUpper.toNat < 128 ∧ c.toUpper.toLower = c.toLower :=
  forall_ascii (P := fun c => c.toUpper.toNat < 128 ∧ c.toUpper.toLower = c.toLower) (by decide) h

theorem toLower_ascii (h : c.toNat < 128) :
    c.toLower.toNat < 128 ∧ c.toLower.toLower = c.toLower :=
  forall_ascii (P := fun c => c.toLower.toNat < 128 ∧ c.toLower.toLower = c.toLower) (by decide) h

/-- A character in lower case is the same, or both are letters. -/
theorem toLower_cases (c : Char) :
    c.toLower = c ∨ c.isAlpha = true ∧ c.toLower.isAlpha = true := by
  by_cases hascii : c.toNat < 128
  · exact forall_ascii
      (P := fun c => c.toLower = c ∨ c.isAlpha = true ∧ c.toLower.isAlpha = true) (by decide) hascii
  · refine .inl ?_
    unfold Char.toLower
    split
    · rename_i h
      have hle : c.val.toNat ≤ 90 := UInt32.le_iff_toNat_le.1 h.2
      exact absurd (show c.toNat < 128 from Nat.lt_of_le_of_lt hle (by decide)) hascii
    · rfl

/-- What all letters have in common does not depend on the case of a character. -/
theorem apply_toLower {β : Type} {f : Char → β} {b : β} (h : ∀ c, c.isAlpha = true → f c = b)
    (c : Char) : f c.toLower = f c := by
  rcases toLower_cases c with heq | ⟨hc, hlower⟩
  · rw [heq]
  · rw [h c hc, h _ hlower]

theorem toList_upper {s : String} (h : IsAscii s.toList) :
    (upper s).toList = s.toList.map Char.toUpper := by
  rw [upper, String.toList_ofList, List.map_eq_flatMap]
  exact List.flatMap_congr fun c hc => upperChar_ascii (h c hc)

theorem toList_lower {s : String} (h : IsAscii s.toList) :
    (lower s).toList = s.toList.map Char.toLower := by
  rw [lower, String.toList_ofList, lowerFrom_ascii h]

theorem lower_eq_iff {s t : String} (hs : IsAscii s.toList) (ht : IsAscii t.toList) :
    lower s = lower t ↔ s.toList.map Char.toLower = t.toList.map Char.toLower := by
  rw [← String.toList_inj, toList_lower hs, toList_lower ht]

theorem lower_upper {s : String} (h : IsAscii s.toList) : lower (upper s) = lower s := by
  have hupper : IsAscii (upper s).toList := by
    rw [toList_upper h]
    exact List.forall_mem_map.2 fun c hc => (toUpper_ascii (h c hc)).1
  rw [lower_eq_iff hupper h, toList_upper h, List.map_map]
  exact List.map_congr_left fun c hc => (toUpper_ascii (h c hc)).2

theorem IsAscii.lower {s : String} (h : IsAscii s.toList) : IsAscii (Text.lower s).toList := by
  rw [toList_lower h]
  exact List.forall_mem_map.2 fun c hc => (toLower_ascii (h c hc)).1

theorem upper_lower {s : String} (h : IsAscii s.toList) : upper (lower s) = upper s := by
  rw [← String.toList_inj, toList_upper h.lower, toList_upper h, toList_lower h, List.map_map]
  exact List.map_congr_left fun c hc => forall_ascii (P := fun c => c.toLower.toUpper = c.toUpper)
    (by decide) (h c hc)

end DecimalSheet.Text
