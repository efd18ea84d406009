import DecimalSheet.Decimal.Notation
import DecimalSheet.Proofs.Text.Character

/-!
# Literals in formulas

A literal in a formula is a run of digits and points and has no sign. Its number is written in plain
notation with the same digits, up to zeros in front, so that it is read again with the same
coefficient and the same exponent.

## Main definitions

* `Decimal.IsLiteral`: the form of a number that is read from a literal without a sign
* `Decimal.IsNumeral`: the characters are those of a literal without a sign

## Main results

* `Decimal.ofLiteral?_plain`: the plain notation of a literal is read as the same number
* `Decimal.isLiteral_of_ofLiteral?`: the number of a literal without a sign has the form of one
-/

namespace DecimalSheet.Decimal

variable {d : Decimal} {cs ds whole decimals : List Char} {negative : Bool}
  {coefficient places : Nat}

/-- The form of a number that is read from a literal without a sign. -/
def IsLiteral (d : Decimal) : Prop := d.negative = false ∧ d.exponent ≤ 0

/-- The characters are digits and points, as in a literal without a sign. -/
def IsNumeral (cs : List Char) : Prop := ∀ c ∈ cs, c.isDigit = true ∨ c = '.'

/-! ## Reading -/

theorem IsNumeral.isBlank_eq_false (h : IsNumeral cs) : ∀ c ∈ cs, Text.isBlank c = false := by
  intro c hc
  rcases h c hc with hdigit | rfl
  · exact Text.isBlank_of_isAlphanum (Text.isAlphanum_of_isDigit hdigit)
  · rfl

/-- In front of digits and points stands no sign. -/
theorem IsNumeral.ofSigned?_eq (h : IsNumeral cs) : ofSigned? cs = ofUnsigned? false cs := by
  unfold ofSigned?
  split
  · exact absurd (h '+' List.mem_cons_self) (by decide)
  · exact absurd (h '-' List.mem_cons_self) (by decide)
  · rfl

/-- Around digits and points stand no blank characters either. -/
theorem IsNumeral.ofLiteral?_eq (h : IsNumeral cs) :
    ofLiteral? (String.ofList cs) = ofUnsigned? false cs := by
  have htrim : Text.trim cs = cs :=
    Text.trim_eq_self (fun c hc => h.isBlank_eq_false c (List.mem_of_mem_head? hc))
      fun c hc => h.isBlank_eq_false c (List.mem_of_mem_getLast? hc)
  rw [ofLiteral?, String.toList_ofList, htrim, h.ofSigned?_eq]

theorem exponent_le_of_ofUnsigned? (h : ofUnsigned? negative cs = some d) :
    d.negative = negative ∧ d.exponent ≤ 0 := by
  unfold ofUnsigned? at h
  simp only at h
  split at h
  · -- digits alone have exponent zero
    split at h
    · cases h
    · cases h
      exact ⟨rfl, Int.le_refl 0⟩
  · -- the exponent counts the digits after the point
    split at h
    · cases h
      exact ⟨rfl, by simp⟩
    · cases h

/-- The number of a literal without a sign has the form of one. -/
theorem isLiteral_of_ofLiteral? (hcs : IsNumeral cs)
    (h : ofLiteral? (String.ofList cs) = some d) : d.IsLiteral := by
  rw [hcs.ofLiteral?_eq] at h
  exact exponent_le_of_ofUnsigned? h

theorem ofUnsigned?_digits (hds : ∀ c ∈ ds, c.isDigit = true) (hne : ds ≠ []) :
    ofUnsigned? negative ds = some ⟨negative, Nat.ofDigitChars 10 ds 0, 0⟩ := by
  have htake : ds.takeWhile Char.isDigit = ds := List.takeWhile_eq_self_iff.2 hds
  have hdrop : ds.dropWhile Char.isDigit = [] := List.dropWhile_eq_nil_iff.2 hds
  unfold ofUnsigned?
  simp only [htake, hdrop, if_neg hne]

theorem ofUnsigned?_point (hwhole : ∀ c ∈ whole, c.isDigit = true)
    (hdecimals : ∀ c ∈ decimals, c.isDigit = true) (hne : ¬(whole = [] ∧ decimals = [])) :
    ofUnsigned? negative (whole ++ '.' :: decimals) =
      some ⟨negative, Nat.ofDigitChars 10 (whole ++ decimals) 0, -(decimals.length : Int)⟩ := by
  have hpoint : ∀ c ∈ ('.' :: decimals).head?, c.isDigit = false := by
    rintro _ ⟨rfl⟩
    rfl
  have hall : decimals.all Char.isDigit = true := List.all_eq_true.2 hdecimals
  unfold ofUnsigned?
  simp only [Text.takeWhile_append_run hwhole hpoint, Text.dropWhile_append_run hwhole hpoint]
  rw [if_pos ⟨trivial, hall, hne⟩]

/-! ## Writing -/

/-- The digits that stand around the point. -/
def paddedDigits (coefficient places : Nat) : List Char :=
  List.replicate (places + 1 - (Nat.toDigits 10 coefficient).length) '0' ++
    Nat.toDigits 10 coefficient

theorem isDigit_of_mem_paddedDigits :
    ∀ c ∈ paddedDigits coefficient places, c.isDigit = true := by
  refine List.forall_mem_append.2 ⟨fun c hc => ?_, Text.isDigit_of_mem_toDigits⟩
  rw [List.eq_of_mem_replicate hc]
  rfl

theorem lt_length_paddedDigits : places < (paddedDigits coefficient places).length := by
  rw [paddedDigits, List.length_append, List.length_replicate]
  omega

theorem ofDigitChars_paddedDigits :
    Nat.ofDigitChars 10 (paddedDigits coefficient places) 0 = coefficient := by
  rw [paddedDigits, Nat.ofDigitChars_append, Nat.ofDigitChars_replicate_zero, Nat.mul_zero,
    Nat.ofDigitChars_ten_toDigits]

/-- The point stands somewhere between the digits, with the given places after it. -/
theorem exists_pointed (coefficient places : Nat) :
    ∃ whole decimals, pointed coefficient places = whole ++ '.' :: decimals ∧
      whole ++ decimals = paddedDigits coefficient places ∧ decimals.length = places := by
  have hlength : places < (paddedDigits coefficient places).length := lt_length_paddedDigits
  refine ⟨_, _, rfl, List.take_append_drop _ (paddedDigits coefficient places), ?_⟩
  rw [List.length_drop, ← paddedDigits]
  omega

/-- Plain notation consists of digits and points and is read as the same number. -/
theorem IsLiteral.ofUnsigned?_plain (h : d.IsLiteral) :
    IsNumeral d.plain.toList ∧ ofUnsigned? false d.plain.toList = some d := by
  obtain ⟨negative, coefficient, exponent⟩ := d
  obtain ⟨rfl, hexponent⟩ := h
  simp only [plain, signText, Bool.false_eq_true, if_false, List.nil_append, String.toList_ofList]
  cases exponent with
  | ofNat k =>
    -- A whole literal is written without a point.
    obtain rfl : k = 0 := by simpa using hexponent
    have hplain : plainDigits coefficient (.ofNat 0) = Nat.toDigits 10 coefficient := by
      rw [plainDigits]
      split
      · rename_i hzero
        rw [hzero]
        rfl
      · exact List.append_nil _
    rw [hplain, ofUnsigned?_digits Text.isDigit_of_mem_toDigits Nat.toDigits_ne_nil,
      Nat.ofDigitChars_ten_toDigits]
    exact ⟨fun c hc => .inl (Text.isDigit_of_mem_toDigits c hc), rfl⟩
  | negSucc k =>
    -- The zeros in front, which make room for the point, do not change the coefficient.
    obtain ⟨whole, decimals, hpointed, hpadded, hlength⟩ := exists_pointed coefficient (k + 1)
    have hdigits : ∀ c ∈ whole ++ decimals, c.isDigit = true :=
      hpadded ▸ isDigit_of_mem_paddedDigits
    obtain ⟨hwhole, hdecimals⟩ := List.forall_mem_append.1 hdigits
    have hne : ¬(whole = [] ∧ decimals = []) :=
      fun h => List.ne_nil_of_length_eq_add_one hlength h.2
    rw [plainDigits, hpointed, ofUnsigned?_point hwhole hdecimals hne, hpadded,
      ofDigitChars_paddedDigits, hlength]
    refine ⟨List.forall_mem_append.2 ⟨fun c hc => .inl (hwhole c hc), ?_⟩, rfl⟩
    exact List.forall_mem_cons.2 ⟨.inr rfl, fun c hc => .inl (hdecimals c hc)⟩

/-- The plain notation of a literal is read as the same number. -/
theorem ofLiteral?_plain (h : d.IsLiteral) : ofLiteral? d.plain = some d := by
  obtain ⟨hnumeral, hread⟩ := h.ofUnsigned?_plain
  rw [← hread, ← hnumeral.ofLiteral?_eq, String.ofList_toList]

end DecimalSheet.Decimal
