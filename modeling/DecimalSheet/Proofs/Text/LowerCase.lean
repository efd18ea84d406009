import DecimalSheet.Proofs.Text.Character

/-!
# Lower case is kept

A text in lower case is its own lower case. The letters that are not their own lower case are those
from A to Z and those of the tables; their lower cases lie outside of the runs of the tables or
between the letters of a run, so none of them is such a letter again.

## Main definitions

* `CaseRun.isApart r q`: the other cases of the letters of `r` do not belong to `q`
* `IsLowered c`: the character is its own lower case, whatever stands around it

## Main results

* `isLowered_of_mem_lowerFrom`: a text in lower case consists of such characters
* `lower_lower`: the lower case of a lower case is the same text
-/

namespace DecimalSheet.Text

/-! ## Runs of the table -/

namespace CaseRun

variable {r q : CaseRun}

/-- The code point of the other case of the first letter. -/
def firstOther (r : CaseRun) : Nat := (r.first + r.shift).toNat

/-- The code point of the other case of the last letter. -/
def lastOther (r : CaseRun) : Nat := (r.last + r.shift).toNat

/-- The other cases of the letters of `r` lie before `q`, behind `q`, or between the letters of `q`
because both are every other code point. -/
def isApart (r q : CaseRun) : Bool :=
  Nat.blt r.lastOther q.first || Nat.blt q.last r.firstOther ||
    (q.step == 2 && (r.step == 2 || r.first == r.last) && (r.firstOther + q.first) % 2 == 1)

theorem contains_other (hr : 0 ≤ r.first + r.shift) (h : r.isApart q = true) {n : Nat}
    (hn : r.contains n = true) : q.contains (n + r.shift).toNat = false := by
  rw [Bool.eq_false_iff]
  intro hother
  simp only [contains, Bool.and_eq_true, decide_eq_true_eq, beq_iff_eq] at hn hother
  obtain ⟨⟨hfirst, hlast⟩, hstep⟩ := hn
  obtain ⟨⟨hfirst', hlast'⟩, hstep'⟩ := hother
  simp only [isApart, firstOther, lastOther, Bool.or_eq_true, Bool.and_eq_true, beq_iff_eq,
    Nat.blt_eq] at h
  obtain (hbefore | hbehind) | ⟨⟨hq, hone⟩, hodd⟩ := h
  · omega
  · omega
  · have heven : (n - r.first) % 2 = 0 := by
      obtain htwo | hone := hone
      · rwa [htwo] at hstep
      · omega
    rw [hq] at hstep'
    omega

end CaseRun

/-- The runs of the characters that are not their own lower case. -/
def capitalRuns : List CaseRun := ⟨65, 90, 1, 32⟩ :: ⟨304, 304, 1, 0⟩ :: lowerRuns

theorem isApart_of_mem_lowerRuns :
    ∀ r ∈ lowerRuns, 0 ≤ r.first + r.shift ∧ capitalRuns.all r.isApart = true := by
  decide +kernel

/-! ## Characters -/

variable {c : Char} {cs before : List Char}

/-- The character is its own lower case, whatever stands around it. -/
def IsLowered (c : Char) : Prop := lowerChar c = [c] ∧ c ≠ 'Σ'

instance (c : Char) : Decidable (IsLowered c) := inferInstanceAs (Decidable (_ ∧ _))

theorem toLower_eq_self_of_lt (h : ¬(65 ≤ c.toNat ∧ c.toNat ≤ 90)) : c.toLower = c := by
  unfold Char.toLower
  refine dif_neg fun hc => h ?_
  simp only [ge_iff_le, UInt32.le_iff_toNat_le] at hc
  exact hc

theorem contains_dotted (n : Nat) : CaseRun.contains ⟨304, 304, 1, 0⟩ n = decide (n = 304) := by
  rw [Bool.eq_iff_iff]
  simp only [CaseRun.contains, Nat.mod_one, Bool.and_eq_true, decide_eq_true_eq, beq_self_eq_true,
    and_true]
  omega

/-- Only the dotted capital I has a lower case of several characters. -/
theorem lookup_lowerExpansions (n : Nat) :
    lowerExpansions.lookup n = if n = 304 then some [105, 775] else none := by
  unfold lowerExpansions
  split
  · rename_i hn
    rw [hn]
    rfl
  · rename_i hn
    rw [List.lookup_cons, beq_false_of_ne hn]
    rfl

/-- A character in none of the runs is its own lower case. -/
theorem isLowered_of_forall (h : ∀ r ∈ capitalRuns, r.contains c.toNat = false) :
    IsLowered c := by
  simp only [capitalRuns, List.forall_mem_cons] at h
  obtain ⟨hletters, hdotted, htable⟩ := h
  constructor
  · unfold lowerChar
    split
    · rw [toLower_eq_self_of_lt fun hc => ?_]
      simp [CaseRun.contains, hc, Nat.mod_one] at hletters
    · have hfind : lowerRuns.find? (·.contains c.toNat) = none := by simpa using htable
      rw [contains_dotted, decide_eq_false_iff_not] at hdotted
      rw [otherCase, lookup_lowerExpansions, if_neg hdotted, hfind]
  · rintro rfl
    have hsigma : lowerRuns.any (·.contains 'Σ'.toNat) = true := by decide
    obtain ⟨r, hr, hcontains⟩ := List.any_eq_true.1 hsigma
    rw [htable r hr] at hcontains
    cases hcontains

theorem isLowered_toLower (h : c.toNat < 128) : IsLowered c.toLower := by
  obtain ⟨hlt, hlower⟩ := toLower_ascii h
  refine ⟨by rw [lowerChar_ascii hlt, hlower], fun hsigma => ?_⟩
  rw [hsigma] at hlt
  exact absurd hlt (by decide)

/-- The other case of a letter of the table is its own lower case. -/
theorem isLowered_other {r : CaseRun} {n : Nat} (hr : r ∈ lowerRuns) (hn : r.contains n = true) :
    IsLowered (Char.ofNat (n + r.shift).toNat) := by
  obtain ⟨hshift, hapart⟩ := isApart_of_mem_lowerRuns r hr
  refine isLowered_of_forall fun q hq => ?_
  rw [Char.toNat_ofNat]
  split
  · exact CaseRun.contains_other hshift (List.all_eq_true.1 hapart q hq) hn
  · -- What is no code point is the character zero.
    have hall : ∀ q ∈ capitalRuns, q.contains 0 = false := by decide +kernel
    exact hall q hq

/-- A character that is neither a letter from A to Z nor in a table is its own lower case. -/
theorem isLowered_of_not_mem (hascii : ¬c.toNat < 128) (hdotted : c.toNat ≠ 304)
    (htable : ∀ r ∈ lowerRuns, r.contains c.toNat = false) : IsLowered c := by
  have hletters : CaseRun.contains ⟨65, 90, 1, 32⟩ c.toNat = false := by
    simp only [CaseRun.contains, Bool.and_eq_false_iff, decide_eq_false_iff_not]
    omega
  have hdot : CaseRun.contains ⟨304, 304, 1, 0⟩ c.toNat = false := by
    rwa [contains_dotted, decide_eq_false_iff_not]
  exact isLowered_of_forall (List.forall_mem_cons.2
    ⟨hletters, List.forall_mem_cons.2 ⟨hdot, htable⟩⟩)

/-- The lower case of a character consists of characters that are their own lower case. -/
theorem isLowered_of_mem_lowerChar : ∀ d ∈ lowerChar c, IsLowered d := by
  unfold lowerChar
  split
  · rename_i hc
    exact List.forall_mem_singleton.2 (isLowered_toLower hc)
  · rename_i hascii
    unfold otherCase
    rw [lookup_lowerExpansions]
    split
    · rename_i hlookup
      split at hlookup <;> cases hlookup
      rw [List.map_cons, List.map_cons, List.map_nil, List.forall_mem_cons,
        List.forall_mem_singleton]
      exact ⟨isLowered_of_forall (by decide +kernel), isLowered_of_forall (by decide +kernel)⟩
    · rename_i hlookup
      split
      · rename_i r hfind
        have hc : r.contains c.toNat = true := by simpa using List.find?_some hfind
        exact List.forall_mem_singleton.2 (isLowered_other (List.mem_of_find?_eq_some hfind) hc)
      · rename_i hfind
        have hdotted : c.toNat ≠ 304 := fun hc => by simp [hc] at hlookup
        have htable : ∀ r ∈ lowerRuns, r.contains c.toNat = false := by simpa using hfind
        exact List.forall_mem_singleton.2 (isLowered_of_not_mem hascii hdotted htable)

theorem isLowered_of_mem_lowerFrom : ∀ d ∈ lowerFrom before cs, IsLowered d := by
  induction cs generalizing before with
  | nil => exact fun _ hd => absurd hd List.not_mem_nil
  | cons c cs ih =>
    intro d hd
    rcases List.mem_append.1 hd with hd | hd
    · unfold lowerBetween at hd
      split at hd
      · rw [List.mem_singleton.1 hd]
        exact isLowered_of_forall (by decide +kernel)
      · exact isLowered_of_mem_lowerChar d hd
    · exact ih d hd

theorem lowerFrom_of_isLowered (h : ∀ c ∈ cs, IsLowered c) : lowerFrom before cs = cs := by
  induction cs generalizing before with
  | nil => rfl
  | cons c cs ih =>
    obtain ⟨⟨hlower, hsigma⟩, hcs⟩ := List.forall_mem_cons.1 h
    rw [lowerFrom, ih hcs, lowerBetween, if_neg fun hc => hsigma hc.1, hlower]
    rfl

/-- The lower case of a lower case is the same text. -/
theorem lower_lower (s : String) : lower (lower s) = lower s := by
  rw [lower, lower, String.toList_ofList, lowerFrom_of_isLowered isLowered_of_mem_lowerFrom]

end DecimalSheet.Text
