import DecimalSheet.Grid.Value
import DecimalSheet.Proofs.Decimal.PlainNotation
import DecimalSheet.Proofs.Text.Joining

/-!
# The texts of numbers

A text says a number if it consists of an optional sign and of digits with at most one point among
them, with blank characters around it. The digits give the coefficient by their places, with the
digits after the point among them, and the number of those gives the exponent. No other text is
read, so a text is read in exactly one way. The plain notation of a number is such a text.

## Main definitions

* `Decimal.Numeral`: digits with at most one point
* `Decimal.Literal`: a numeral after an optional sign, with blank characters around it
* `Decimal.positional ds`: the whole number that digits give by their places

## Main results

* `Decimal.ofLiteral?_eq_some_iff`: what is read is a literal, with the number that it says
* `Decimal.literals_read_and_written`: the texts of numbers are the literals, and among them are all
  texts in plain notation
-/

namespace DecimalSheet.Decimal

variable {d : Decimal} {cs ds : List Char} {negative : Bool}

/-! ## Digits -/

/-- The whole number that digits give by their places: the last one counts as it is, and each place
to the left counts ten times as much as the one before. -/
def positional (ds : List Char) : Nat :=
  Nat.ofDigits 10 (ds.reverse.map fun c => c.toNat - '0'.toNat)

/-- To read the digits from left to right gives the same. -/
theorem ofDigitChars_eq_positional (ds : List Char) : Nat.ofDigitChars 10 ds 0 = positional ds := by
  induction ds using List.reverseRecOn with
  | nil => rfl
  | append_singleton ds c ih =>
    have hlast : positional (ds ++ [c]) = (c.toNat - '0'.toNat) + 10 * positional ds := by
      simp [positional, Nat.ofDigits_cons]
    rw [hlast, ← ih, Nat.ofDigitChars_append, Nat.ofDigitChars_cons, Nat.ofDigitChars_nil,
      Nat.add_comm]

/-- Digits with at most one point, before, between or after them. -/
structure Numeral where
  /-- The digits before the point, or all digits. -/
  whole : List Char
  /-- The digits after the point, if there is a point. -/
  places : Option (List Char)
  isDigit_whole : ∀ c ∈ whole, c.isDigit = true
  isDigit_places : ∀ c ∈ places.getD [], c.isDigit = true
  digits_ne_nil : whole ++ places.getD [] ≠ []

namespace Numeral

variable {n : Numeral}

/-- The characters of a numeral. -/
def text (n : Numeral) : List Char := n.whole ++ n.places.elim [] ('.' :: ·)

/-- The digits of a numeral, without the point. -/
def digits (n : Numeral) : List Char := n.whole ++ n.places.getD []

/-- The number that a numeral says. -/
def number (n : Numeral) (negative : Bool) : Decimal :=
  ⟨negative, positional n.digits, -((n.places.getD []).length : Int)⟩

theorem isNumeral_text (n : Numeral) : IsNumeral n.text := by
  obtain ⟨whole, places, hwhole, hplaces, -⟩ := n
  refine List.forall_mem_append.2 ⟨fun c hc => .inl (hwhole c hc), ?_⟩
  cases places with
  | none => exact List.forall_mem_nil _
  | some places => exact List.forall_mem_cons.2 ⟨.inr rfl, fun c hc => .inl (hplaces c hc)⟩

/-- A numeral is read as the number that it says. -/
theorem ofUnsigned?_text (n : Numeral) (negative : Bool) :
    ofUnsigned? negative n.text = some (n.number negative) := by
  obtain ⟨whole, places, hwhole, hplaces, hne⟩ := n
  cases places with
  | none =>
    have hne' : whole ≠ [] := by simpa using hne
    simp only [text, number, digits, Option.elim_none, Option.getD_none, List.append_nil]
    rw [ofUnsigned?_digits hwhole hne', ofDigitChars_eq_positional]
    rfl
  | some places =>
    have hne' : ¬(whole = [] ∧ places = []) := by simpa using hne
    rw [Option.getD_some] at hplaces
    simp only [text, number, digits, Option.elim_some, Option.getD_some]
    rw [ofUnsigned?_point hwhole hplaces hne', ofDigitChars_eq_positional]

end Numeral

/-- What is read without a sign is a numeral. -/
theorem exists_numeral (h : ofUnsigned? negative cs = some d) : ∃ n : Numeral, n.text = cs := by
  let whole := cs.takeWhile Char.isDigit
  have hwhole : ∀ c ∈ whole, c.isDigit = true := fun c hc => List.mem_takeWhile_imp hc
  have hcut : whole ++ cs.dropWhile Char.isDigit = cs := List.takeWhile_append_dropWhile
  unfold ofUnsigned? at h
  simp only at h
  split at h
  · -- digits alone
    rename_i hdrop
    split at h
    · cases h
    · rename_i hne
      refine ⟨⟨whole, none, hwhole, List.forall_mem_nil _, ?_⟩, ?_⟩
      · rw [Option.getD_none, List.append_nil]
        exact hne
      · rw [hdrop] at hcut
        exact hcut
  · -- digits around a point
    rename_i c places hdrop
    split at h
    · rename_i hpoint
      obtain ⟨rfl, hplaces, hne⟩ := hpoint
      refine ⟨⟨whole, some places, hwhole, List.all_eq_true.1 hplaces, ?_⟩, ?_⟩
      · rw [Option.getD_some, ne_eq, List.append_eq_nil_iff]
        exact hne
      · rw [hdrop] at hcut
        exact hcut
    · cases h

/-! ## Signs -/

/-- The sign of a number as it is written: a plus, a minus or none. -/
inductive Sign where
  | plus
  | minus
  | none
  deriving DecidableEq

namespace Sign

/-- The characters of a sign. -/
def text : Sign → List Char
  | plus => ['+']
  | minus => ['-']
  | none => []

/-- A number is negative only after a minus. -/
def isMinus : Sign → Bool
  | minus => true
  | _ => false

theorem isBlank_text (sign : Sign) : ∀ c ∈ sign.text, Text.isBlank c = false := by
  intro c hc
  cases sign with
  | plus =>
    rw [List.mem_singleton.1 hc]
    rfl
  | minus =>
    rw [List.mem_singleton.1 hc]
    rfl
  | none => cases hc

end Sign

theorem ofSigned?_text (sign : Sign) (n : Numeral) :
    ofSigned? (sign.text ++ n.text) = some (n.number sign.isMinus) := by
  cases sign with
  | plus => exact n.ofUnsigned?_text false
  | minus => exact n.ofUnsigned?_text true
  | none =>
    rw [Sign.text, List.nil_append, n.isNumeral_text.ofSigned?_eq]
    exact n.ofUnsigned?_text false

/-- What is read after an optional sign is a numeral. -/
theorem exists_signed (h : ofSigned? cs = some d) :
    ∃ (sign : Sign) (n : Numeral), sign.text ++ n.text = cs := by
  unfold ofSigned? at h
  split at h
  · obtain ⟨n, rfl⟩ := exists_numeral h
    exact ⟨.plus, n, rfl⟩
  · obtain ⟨n, rfl⟩ := exists_numeral h
    exact ⟨.minus, n, rfl⟩
  · obtain ⟨n, rfl⟩ := exists_numeral h
    exact ⟨.none, n, rfl⟩

/-! ## Literals -/

/-- A numeral after an optional sign, with blank characters around it. -/
structure Literal extends Numeral where
  /-- The blank characters in front. -/
  before : List Char
  /-- The sign. -/
  sign : Sign
  /-- The blank characters at the end. -/
  after : List Char
  isBlank_before : ∀ c ∈ before, Text.isBlank c = true
  isBlank_after : ∀ c ∈ after, Text.isBlank c = true

namespace Literal

/-- The characters of a literal. -/
def text (l : Literal) : List Char :=
  l.before ++ (l.sign.text ++ l.toNumeral.text ++ l.after)

/-- The number that a literal says. -/
def value (l : Literal) : Decimal := l.number l.sign.isMinus

theorem trim_text (l : Literal) : Text.trim l.text = l.sign.text ++ l.toNumeral.text := by
  refine Text.trim_padded l.isBlank_before l.isBlank_after ?_
  exact List.forall_mem_append.2 ⟨l.sign.isBlank_text, l.isNumeral_text.isBlank_eq_false⟩

end Literal

/-- What is read is a literal, with the number that it says. -/
theorem ofLiteral?_eq_some_iff {s : String} :
    ofLiteral? s = some d ↔ ∃ l : Literal, l.text = s.toList ∧ l.value = d := by
  rw [ofLiteral?]
  constructor
  · intro h
    obtain ⟨before, after, hcut, hbefore, hafter⟩ := Text.exists_trim s.toList
    obtain ⟨sign, n, hsigned⟩ := exists_signed h
    refine ⟨⟨n, before, sign, after, hbefore, hafter⟩, ?_, ?_⟩
    · rw [hcut, ← hsigned]
      rfl
    · rw [← hsigned, ofSigned?_text, Option.some_inj] at h
      exact h
  · rintro ⟨l, htext, rfl⟩
    rw [← htext, l.trim_text]
    exact ofSigned?_text l.sign l.toNumeral

theorem ofRaw_text_eq_ok_iff {s : String} :
    ofRaw (.text s) = .ok d ↔ ofLiteral? s = some d := by
  simp only [ofRaw]
  cases ofLiteral? s <;> simp

theorem ofRaw_text_eq_error_iff {s : String} :
    ofRaw (.text s) = .error (.invalidNumber (.text s)) ↔ ofLiteral? s = none := by
  simp only [ofRaw]
  cases ofLiteral? s <;> simp

/-- The texts of numbers are the literals, which say the number by their sign, their digits and the
point; any other text is refused. Plain notation has no power of ten and is the text of a number
with the same sign and the same value, and of the number itself unless its exponent is positive. -/
theorem literals_read_and_written :
    (∀ s d, ofRaw (.text s) = .ok d ↔ ∃ l : Literal, l.text = s.toList ∧ l.value = d) ∧
    (∀ s, ofRaw (.text s) = .error (.invalidNumber (.text s)) ↔
      ¬∃ l : Literal, l.text = s.toList) ∧
    ∀ d : Decimal, (∀ c ∈ d.plain.toList, c = '-' ∨ c.isDigit = true ∨ c = '.') ∧
      ∃ d', ofRaw (.text d.plain) = .ok d' ∧ d'.negative = d.negative ∧ d'.toRat = d.toRat ∧
        if d.exponent ≤ 0 then d' = d else d'.exponent = 0 := by
  refine ⟨?_, ?_, ?_⟩
  · intro s d
    rw [ofRaw_text_eq_ok_iff, ofLiteral?_eq_some_iff]
  · intro s
    rw [ofRaw_text_eq_error_iff, Option.eq_none_iff_forall_ne_some]
    constructor
    · rintro h ⟨l, htext⟩
      exact h l.value (ofLiteral?_eq_some_iff.2 ⟨l, htext, rfl⟩)
    · intro h d hread
      obtain ⟨l, htext, -⟩ := ofLiteral?_eq_some_iff.1 hread
      exact h ⟨l, htext⟩
  · intro d
    have hspells : SpellsOut d d.spelledOut := spellsOut_spelledOut d
    refine ⟨fun c hc => mem_plain hc, d.spelledOut, ?_, hspells.negative, hspells.toRat, ?_⟩
    · rw [ofRaw_text_eq_ok_iff]
      exact ofLiteral?_plain_eq d
    · split
      · rename_i hexponent
        exact spelledOut_of_exponent_le hexponent
      · rename_i hexponent
        exact hspells.exponent (not_le.1 hexponent)

end DecimalSheet.Decimal
