import DecimalSheet.Proofs.Decimal.Literal
import DecimalSheet.Proofs.Decimal.Rational

/-!
# Numbers that are read from their plain notation

Plain notation has no power of ten. The zeros for which a positive exponent stands are written out,
and they become digits of the coefficient when the text is read. Nothing else changes: the sign is
kept, also that of zero, and so are the digits after the point.

## Main definitions

* `Decimal.spelledOut d`: the number with the zeros of a positive exponent in its coefficient
* `Decimal.SpellsOut d d'`: what plain notation keeps of a number

## Main results

* `Decimal.ofLiteral?_plain_eq`: the plain notation of any number is read as the spelled out number
* `Decimal.plain_spelledOut`: a number and its spelled out form have the same plain notation
* `Decimal.spellsOut_spelledOut`: the spelled out form keeps the sign and the number
-/

namespace DecimalSheet.Decimal

variable {d : Decimal} {cs : List Char} {coefficient : Nat} {negative : Bool}

/-- The number with the zeros for which a positive exponent stands in its coefficient. -/
def spelledOut (d : Decimal) : Decimal :=
  ⟨d.negative, d.coefficient * Nat.pow 10 d.exponent.toNat, min d.exponent 0⟩

/-- What plain notation keeps: the sign and the number, and also the form unless the exponent is
positive. -/
structure SpellsOut (d d' : Decimal) : Prop where
  negative : d'.negative = d.negative
  toRat : d'.toRat = d.toRat
  form : d.exponent ≤ 0 → d'.coefficient = d.coefficient ∧ d'.exponent = d.exponent
  exponent : 0 < d.exponent → d'.exponent = 0

theorem spelledOut_of_exponent_le (h : d.exponent ≤ 0) : d.spelledOut = d := by
  simp [spelledOut, Int.toNat_of_nonpos h, min_eq_left h]

theorem toRat_spelledOut (d : Decimal) : d.spelledOut.toRat = d.toRat := by
  rcases le_total d.exponent 0 with h | h
  · rw [spelledOut_of_exponent_le h]
  · have hsigned : d.spelledOut.signed = d.unitsAt 0 := by
      cases hn : d.negative <;> simp [spelledOut, signed, unitsAt, hn]
    rw [toRat_eq_unitsAt h, toRat, hsigned, spelledOut, min_eq_right h]

theorem spellsOut_spelledOut (d : Decimal) : SpellsOut d d.spelledOut where
  negative := rfl
  toRat := toRat_spelledOut d
  form h := by simp [spelledOut_of_exponent_le h]
  exponent h := min_eq_right h.le

/-! ## Writing -/

theorem toDigits_mul_pow (hpos : 0 < coefficient) (k : Nat) :
    Nat.toDigits 10 coefficient ++ List.replicate k '0' =
      Nat.toDigits 10 (coefficient * Nat.pow 10 k) := by
  induction k with
  | zero => simp
  | succ k ih =>
    -- One more zero is one more factor of ten.
    have hfactor : 0 < coefficient * Nat.pow 10 k := Nat.mul_pos hpos (Nat.pow_pos (by decide))
    rw [List.replicate_succ', ← List.append_assoc, ih]
    have hzero := Nat.toDigits_append_toDigits (b := 10) (d := 0) (by decide) hfactor (by decide)
    rw [Nat.toDigits_zero] at hzero
    rw [hzero]
    congr 1
    simp only [Nat.pow_eq, pow_succ]
    ring

/-- A number without places after the point is written as a whole number. -/
theorem plainDigits_natCast (coefficient k : Nat) :
    plainDigits coefficient (k : ℤ) = Nat.toDigits 10 (coefficient * Nat.pow 10 k) := by
  show (if coefficient = 0 then _ else _) = _
  split
  · rename_i h
    simp [h]
  · rename_i h
    exact toDigits_mul_pow (Nat.pos_of_ne_zero h) k

/-- A number and its spelled out form have the same plain notation. -/
theorem plain_spelledOut (d : Decimal) : d.spelledOut.plain = d.plain := by
  rcases le_total d.exponent 0 with h | h
  · rw [spelledOut_of_exponent_le h]
  · obtain ⟨k, hk⟩ := Int.eq_ofNat_of_zero_le h
    have hdigits : plainDigits (d.coefficient * Nat.pow 10 k) ((0 : Nat) : ℤ) =
        plainDigits d.coefficient (k : ℤ) := by
      rw [plainDigits_natCast, plainDigits_natCast]
      simp
    simp only [plain, signText, spelledOut, min_eq_right h]
    rw [hk, Int.toNat_natCast]
    rw [← hdigits]
    rfl

/-! ## Reading -/

/-- The sign only enters the number that is read. -/
theorem ofUnsigned?_eq_map (negative : Bool) (cs : List Char) :
    ofUnsigned? negative cs = (ofUnsigned? false cs).map fun d => { d with negative } := by
  unfold ofUnsigned?
  simp only
  split <;> split <;> rfl

/-- Plain notation is a numeral after the sign. -/
theorem exists_plain (d : Decimal) : ∃ numeral, IsNumeral numeral ∧
    d.plain.toList = d.signText ++ numeral ∧
    ofUnsigned? d.negative numeral = some d.spelledOut := by
  have hliteral : IsLiteral { d.spelledOut with negative := false } := ⟨rfl, min_le_right _ _⟩
  obtain ⟨hnumeral, hread⟩ := hliteral.ofUnsigned?_plain
  refine ⟨_, hnumeral, ?_, ?_⟩
  · rw [← plain_spelledOut]
    simp [plain, signText]
    rfl
  · rw [ofUnsigned?_eq_map, hread]
    rfl

/-- A character of plain notation is a minus, a digit or a point. -/
theorem mem_plain {c : Char} (hc : c ∈ d.plain.toList) :
    c = '-' ∨ c.isDigit = true ∨ c = '.' := by
  obtain ⟨numeral, hnumeral, hplain, -⟩ := d.exists_plain
  rw [hplain, List.mem_append] at hc
  rcases hc with hsign | hdigit
  · unfold signText at hsign
    split at hsign
    · exact .inl (List.mem_singleton.1 hsign)
    · cases hsign
  · exact .inr (hnumeral c hdigit)

theorem toList_plain_ne_nil (d : Decimal) : d.plain.toList ≠ [] := by
  obtain ⟨numeral, -, hplain, hread⟩ := d.exists_plain
  rw [hplain, ne_eq, List.append_eq_nil_iff]
  rintro ⟨-, rfl⟩
  cases hread

theorem trim_plain (d : Decimal) : Text.trim d.plain.toList = d.plain.toList := by
  have hblank : ∀ c ∈ d.plain.toList, Text.isBlank c = false := by
    intro c hc
    rcases mem_plain hc with rfl | hnumeral
    · rfl
    · have hc : IsNumeral [c] := by simpa [IsNumeral] using hnumeral
      exact hc.isBlank_eq_false c List.mem_cons_self
  exact Text.trim_eq_self (fun c hc => hblank c (List.mem_of_mem_head? hc))
    fun c hc => hblank c (List.mem_of_mem_getLast? hc)

/-- The plain notation of any number is read as the spelled out number. -/
theorem ofLiteral?_plain_eq (d : Decimal) : ofLiteral? d.plain = some d.spelledOut := by
  obtain ⟨numeral, hnumeral, hplain, hread⟩ := d.exists_plain
  rw [ofLiteral?, trim_plain, hplain]
  cases hn : d.negative with
  | true =>
    rw [hn] at hread
    simpa [signText, hn, ofSigned?] using hread
  | false =>
    rw [hn, ← hnumeral.ofSigned?_eq] at hread
    simpa [signText, hn] using hread

end DecimalSheet.Decimal
