import DecimalSheet.Proofs.Address.Rectangle
import DecimalSheet.Proofs.Formula.RoundTrip
import DecimalSheet.Proofs.Text.Joining

/-!
# Addresses as keys

A column is known by its letters, since letters count without a zero: no two columns have the same
letters, and letters in either case are those of the column that they name, in upper case. So
however an address is spelled, its canonical text is the same, and wherever it comes from, it is
read again from this text. Addresses can be used as keys: they are the same, as a text with a row
and a column, if the row and the column are.

## Main definitions

* `Address.Spelling`: letters and digits with blank characters around them
* `Address.key a`: the canonical text, the row and the column
* `Address.IsObtained a`: the address comes from a raw value, from a formula or from a range

## Main results

* `Column.letters_index`: the letters of the column that letters name are these in upper case
* `Address.read_eq_ok_iff`: what is read is a spelling of the address
* `Address.IsObtained.isReadable`: an address is read again, wherever it comes from
* `Reference.read_text`: so is a range between such addresses
* `Address.addresses_are_keys`: all of this together
-/

namespace DecimalSheet

/-! ## Columns -/

namespace Column

variable {c : Char} {cs : List Char}

/-- A letter is a digit from one to twenty-six, and its upper case is the letter of this digit. -/
theorem letter_digit (h : c.isAlpha = true) :
    1 ≤ digit c ∧ digit c ≤ 26 ∧ letter (digit c - 1) = c.toUpper := by
  have hall : ∀ n : Fin 128, (Char.ofNat n).isAlpha = true → 1 ≤ digit (Char.ofNat n) ∧
      digit (Char.ofNat n) ≤ 26 ∧
        letter (digit (Char.ofNat n) - 1) = (Char.ofNat n).toUpper := by
    decide
  exact Text.forall_ascii (P := fun c => c.isAlpha = true → 1 ≤ digit c ∧ digit c ≤ 26 ∧
    letter (digit c - 1) = c.toUpper) hall
    (Text.toNat_lt_of_isAlphanum (Text.isAlphanum_of_isAlpha h)) h

/-- One more letter at the end counts as a last digit. -/
theorem index_append_singleton (hcs : ∀ c ∈ cs, c.isAlpha = true) (hne : cs ≠ []) (c : Char) :
    index (cs ++ [c]) = (index cs + 1) * 26 + digit c - 1 := by
  have hpos : 0 < cs.foldl (fun n c => n * 26 + digit c) 0 := by
    obtain ⟨init, last, rfl⟩ := (List.eq_nil_or_concat' cs).resolve_left hne
    have hlast := (letter_digit (hcs last (by simp))).1
    rw [List.foldl_append, List.foldl_cons, List.foldl_nil]
    omega
  rw [index, index, List.foldl_append, List.foldl_cons, List.foldl_nil, Nat.sub_add_cancel hpos]

/-- The letters of the column that letters name are these letters in upper case. -/
theorem letters_index (hcs : ∀ c ∈ cs, c.isAlpha = true) (hne : cs ≠ []) :
    letters (index cs) = cs.map Char.toUpper := by
  induction cs using List.reverseRecOn with
  | nil => exact absurd rfl hne
  | append_singleton init c ih =>
    obtain ⟨hinit, hc⟩ := List.forall_mem_append.1 hcs
    obtain ⟨hlower, hupper, hletter⟩ := letter_digit (hc c List.mem_cons_self)
    cases init with
    | nil =>
      have hindex : index ([] ++ [c]) = digit c - 1 := by simp [index]
      have hone : digit c - 1 < 26 := by omega
      rw [hindex, letters, if_pos hone, hletter]
      rfl
    | cons b init =>
      have hlong : ¬index (b :: init ++ [c]) < 26 := by
        rw [index_append_singleton hinit (List.cons_ne_nil b init)]
        omega
      -- The digit is at least one and at most twenty-six, so there is no carry.
      have hquotient : index (b :: init ++ [c]) / 26 - 1 = index (b :: init) := by
        rw [index_append_singleton hinit (List.cons_ne_nil b init)]
        omega
      have hremainder : index (b :: init ++ [c]) % 26 = digit c - 1 := by
        rw [index_append_singleton hinit (List.cons_ne_nil b init)]
        omega
      rw [letters, if_neg hlong, hquotient, hremainder, ih hinit (List.cons_ne_nil b init),
        hletter, List.map_append]
      rfl

theorem nameOfRaw_natCast (n : Nat) : nameOfRaw (.whole n) = .ok (String.ofList (letters n)) := by
  simp [nameOfRaw, isNegative_natCast, indexOfRaw, bind, Except.bind, pure, Except.pure]

theorem ofRaw_letters (hcs : ∀ c ∈ cs, c.isAlpha = true) (hne : cs ≠ []) :
    ofRaw (.text (String.ofList cs)) = .ok (index cs) := by
  have hall : cs.all Char.isAlpha = true := List.all_eq_true.2 hcs
  simp [ofRaw, index?, hne, hall]

end Column

namespace Address

variable {a b : Address} {s : String}

/-! ## Spellings -/

/-- Letters in either case, and digits that may begin with zeros, with blank characters around
them. -/
structure Spelling where
  /-- The blank characters in front. -/
  before : List Char
  /-- The letters of the column. -/
  letters : List Char
  /-- The digits of the number of the row. -/
  digits : List Char
  /-- The blank characters at the end. -/
  after : List Char
  isBlank_before : ∀ c ∈ before, Text.isBlank c = true
  isBlank_after : ∀ c ∈ after, Text.isBlank c = true
  isAlpha_letters : ∀ c ∈ letters, c.isAlpha = true
  letters_ne_nil : letters ≠ []
  isDigit_digits : ∀ c ∈ digits, c.isDigit = true
  length_digits_le : digits.length ≤ maxRowDigits
  rowNumber_pos : 0 < Nat.ofDigitChars 10 digits 0

namespace Spelling

variable {p : Spelling}

/-- The characters of a spelling. -/
def text (p : Spelling) : List Char := p.before ++ (p.letters ++ p.digits ++ p.after)

/-- The number of the row, counted from one. -/
def rowNumber (p : Spelling) : Nat := Nat.ofDigitChars 10 p.digits 0

/-- The address that is spelled. -/
def address (p : Spelling) : Address := ⟨p.rowNumber - 1, Column.index p.letters⟩

/-- A spelling and the canonical text have the same letters, up to their case, and digits of the
same number. -/
theorem toList_text_address (p : Spelling) :
    p.address.text.toList = p.letters.map Char.toUpper ++ Nat.toDigits 10 p.rowNumber := by
  have hrow : p.rowNumber - 1 + 1 = p.rowNumber := Nat.sub_add_cancel p.rowNumber_pos
  rw [toList_text, address, hrow, Column.letters_index p.isAlpha_letters p.letters_ne_nil]

theorem trim_text (p : Spelling) : Text.trim p.text = p.letters ++ p.digits := by
  refine Text.trim_padded p.isBlank_before p.isBlank_after (List.forall_mem_append.2 ⟨?_, ?_⟩)
  · intro c hc
    exact Text.isBlank_of_isAlphanum (Text.isAlphanum_of_isAlpha (p.isAlpha_letters c hc))
  · intro c hc
    exact Text.isBlank_of_isAlphanum (Text.isAlphanum_of_isDigit (p.isDigit_digits c hc))

theorem isAlpha_of_mem_head?_digits (p : Spelling) :
    ∀ c ∈ p.digits.head?, c.isAlpha = false := by
  intro c hc
  exact Text.isAlpha_of_isDigit (p.isDigit_digits c (List.mem_of_mem_head? hc))

theorem digits_ne_nil (p : Spelling) : p.digits ≠ [] := by
  intro h
  have hpos := p.rowNumber_pos
  simp [h] at hpos

/-- A spelling is read as the address that is spelled. -/
theorem read_eq_ok (p : Spelling) (hs : s.toList = p.text) : read s = .ok p.address := by
  have htake : (p.letters ++ p.digits).takeWhile Char.isAlpha = p.letters :=
    Text.takeWhile_append_run p.isAlpha_letters p.isAlpha_of_mem_head?_digits
  have hdrop : (p.letters ++ p.digits).dropWhile Char.isAlpha = p.digits :=
    Text.dropWhile_append_run p.isAlpha_letters p.isAlpha_of_mem_head?_digits
  have hcoordinate : isCoordinate (p.letters ++ p.digits) = true := by
    unfold isCoordinate
    rw [htake, hdrop]
    simpa [p.letters_ne_nil, p.digits_ne_nil] using p.isDigit_digits
  obtain ⟨row, hrow⟩ := Nat.exists_eq_add_one_of_ne_zero p.rowNumber_pos.ne'
  have haddress : p.address = ⟨row, Column.index p.letters⟩ := by
    rw [address, rowNumber, hrow, Nat.add_sub_cancel]
  unfold read
  simp only [hs, p.trim_text, hcoordinate, htake, hdrop, hrow, haddress,
    if_neg (Nat.not_lt.2 p.length_digits_le)]
  rfl

end Spelling

/-- What is read is a spelling of the address. -/
theorem read_eq_ok_iff : read s = .ok a ↔ ∃ p : Spelling, p.text = s.toList ∧ p.address = a := by
  constructor
  · intro h
    obtain ⟨before, after, hcut, hbefore, hafter⟩ := Text.exists_trim s.toList
    let cs := Text.trim s.toList
    have hparts : cs.takeWhile Char.isAlpha ++ cs.dropWhile Char.isAlpha = cs :=
      List.takeWhile_append_dropWhile
    unfold read at h
    simp only at h
    split at h
    · cases h
    · rename_i hcoordinate
      rw [Bool.not_eq_true', Bool.not_eq_false, isCoordinate, Bool.and_eq_true, Bool.and_eq_true]
        at hcoordinate
      obtain ⟨⟨hletters, -⟩, hdigits⟩ := hcoordinate
      split at h
      · cases h
      · rename_i hlength
        split at h
        · cases h
        · rename_i row hrow
          refine ⟨⟨before, cs.takeWhile Char.isAlpha, cs.dropWhile Char.isAlpha, after, hbefore,
            hafter, fun c hc => List.mem_takeWhile_imp hc, bne_iff_ne.1 hletters,
            List.all_eq_true.1 hdigits, Nat.not_lt.1 hlength, hrow ▸ Nat.succ_pos row⟩, ?_, ?_⟩
          · exact (congrArg (fun cs => before ++ (cs ++ after)) hparts).trans hcut.symm
          · rw [← Except.ok.inj h]
            exact congrArg (fun n => Address.mk (n - 1) (Column.index (cs.takeWhile Char.isAlpha)))
              hrow
  · rintro ⟨p, hp, rfl⟩
    exact p.read_eq_ok hp.symm

/-! ## Pairs -/

/-- A row that can be written is short enough to be read. -/
theorem isReadable_of_rowText {v : RawValue} {number : String} {row : Nat}
    (htext : rowText v = .ok number) (hrow : rowOfRaw v = .ok row) (col : Nat) :
    IsReadable ⟨row, col⟩ := by
  cases v with
  | whole n =>
    simp only [rowText] at htext
    split at htext
    · rename_i hlimit
      cases hrow
      exact hlimit
    · cases htext
  | truth b =>
    cases hrow
    have hsmall : b.toNat + 1 < 10 ^ 1 := by cases b <;> decide
    have hpow := Nat.pow_le_pow_right (n := 10) (by decide) (show 1 ≤ maxRowDigits by decide)
    exact isReadable_iff.2 (Nat.lt_of_lt_of_le hsmall hpow)
  | _ => cases hrow

/-- The address of a row and a column can be read again, since its text was written. -/
theorem isReadable_of_ofPair {row col pair : RawValue} (h : ofPair row col pair = .ok a) :
    a.IsReadable := by
  obtain ⟨text, htext, h⟩ := exists_of_bind_eq_ok h
  obtain ⟨r, hrow, h⟩ := exists_of_bind_eq_ok h
  obtain ⟨c, hcol, h⟩ := exists_of_bind_eq_ok h
  cases h
  obtain ⟨negative, -, htext⟩ := exists_of_bind_eq_ok htext
  split at htext
  · cases htext
  · obtain ⟨negative', -, htext⟩ := exists_of_bind_eq_ok htext
    split at htext
    · cases htext
    · obtain ⟨letters, -, htext⟩ := exists_of_bind_eq_ok htext
      obtain ⟨number, hnumber, -⟩ := exists_of_bind_eq_ok htext
      exact isReadable_of_rowText hnumber hrow c

/-- An address that a raw value names can be read again. -/
theorem isReadable_of_ofRaw {v : RawValue} (h : ofRaw v = .ok a) : a.IsReadable := by
  unfold ofRaw at h
  split at h
  · exact isReadable_of_read h
  · split at h
    · cases h
    · exact isReadable_of_ofPair h
    · split at h <;> cases h

/-- A row and a column are named by the canonical text of their address. -/
theorem pairText_natCast {row col : Nat} (h : IsReadable ⟨row, col⟩) (pair : RawValue) :
    pairText (.whole row) (.whole col) pair = .ok (text ⟨row, col⟩) := by
  have hlimit : row + 1 < rowNumberLimit := h
  have hrow : rowText (.whole row) = .ok (toString (row + 1)) := by simp [rowText, hlimit]
  have htext : String.ofList (Column.letters col) ++ toString (row + 1) = text ⟨row, col⟩ := by
    rw [← String.toList_inj, String.toList_append, toList_text, String.toList_ofList]
    simp
  rw [← htext]
  simp [pairText, Column.isNegative_natCast, Column.nameOfRaw_natCast, hrow, bind, Except.bind,
    pure, Except.pure]

end Address

/-! ## References in formulas -/

/-- The addresses that are written in a reference. -/
def Reference.corners : Reference → List Address
  | cell a => [a]
  | range r => [r.start, r.stop]

namespace Expr

mutual

/-- The addresses in a legible tree can be read again. -/
theorem IsLegible.isReadable : (e : Expr) → e.IsLegible →
    ∀ reference ∈ e.references, ∀ a ∈ reference.corners, a.IsReadable
  | number _, _ | foreign _, _ => List.forall_mem_nil _
  | cell a, h => by
    have hcell : a.IsReadable := h
    simpa [references, Reference.corners] using hcell
  | range r, h => by
    have hcorners : r.start.IsReadable ∧ r.stop.IsReadable := h
    simpa [references, Reference.corners] using hcorners
  | binary _ left right, ⟨_, ⟨_, hleft⟩, _, hright⟩ => by
    rw [references]
    exact List.forall_mem_append.2
      ⟨IsLegible.isReadable left hleft, IsLegible.isReadable right hright⟩
  | negate operand, ⟨_, h⟩ => IsLegible.isReadable operand h
  | call _ args, ⟨_, _, h⟩ => AreLegible.isReadable args h

theorem AreLegible.isReadable : (es : List Expr) → AreLegible es →
    ∀ reference ∈ referencesAll es, ∀ a ∈ reference.corners, a.IsReadable
  | [], _ => List.forall_mem_nil _
  | e :: es, ⟨h, hes⟩ => by
    rw [referencesAll]
    exact List.forall_mem_append.2 ⟨IsLegible.isReadable e h, AreLegible.isReadable es hes⟩

end

end Expr

/-! ## Where addresses come from -/

namespace Address

variable {a b : Address}

/-- The address comes from a raw value that names it, stands in a formula, or is a member of a range
between two such addresses. -/
inductive IsObtained : Address → Prop
  | named {v : RawValue} {a : Address} (h : ofRaw v = .ok a) : IsObtained a
  | mentioned {f : Formula} {e : Expr} {reference : Reference} {a : Address}
    (htree : f.tree = .ok e) (hreference : reference ∈ e.references)
    (ha : a ∈ reference.corners) : IsObtained a
  | member {r : Range} {a : Address} (hstart : IsObtained r.start) (hstop : IsObtained r.stop)
    (ha : a ∈ r.members) : IsObtained a

/-- An address can be read again, wherever it comes from. -/
theorem IsObtained.isReadable (h : a.IsObtained) : a.IsReadable := by
  induction h with
  | named h => exact isReadable_of_ofRaw h
  | mentioned htree hreference ha =>
    obtain ⟨-, hlegible, -⟩ := Formula.isLegible_of_tree htree
    exact hlegible.isReadable _ _ hreference _ ha
  | @member r a _ _ ha hstart hstop =>
    obtain ⟨⟨-, hrow⟩, -⟩ := Range.mem_members_iff.1 ha
    unfold IsReadable at hstart hstop ⊢
    unfold Range.maxRow at hrow
    omega

/-- What an address is as a key: its canonical text, its row and its column. -/
def key (a : Address) : String × Nat × Nat := (a.text, a.row, a.col)

theorem text_eq_iff : a.text = b.text ↔ a.row = b.row ∧ a.col = b.col := by
  constructor
  · intro h
    rw [text_injective h]
    exact ⟨rfl, rfl⟩
  · rintro ⟨hrow, hcol⟩
    rw [text, text, hrow, hcol]

theorem key_eq_iff : a.key = b.key ↔ a.row = b.row ∧ a.col = b.col := by
  rw [key, key, Prod.mk.injEq, Prod.mk.injEq, text_eq_iff, and_self]

theorem colon_not_mem_text : ':' ∉ a.text.toList := by
  intro h
  exact absurd (isAlphanum_of_mem_text _ h) (by decide)

end Address

/-- The colon of a range stands between the texts of its corners, and nowhere else. -/
theorem Range.fields_text (r : Range) :
    Text.fields ':' [] r.text.toList = [r.start.text.toList, r.stop.text.toList] := by
  have htext : r.text.toList = r.start.text.toList ++ ':' :: r.stop.text.toList := by
    simp [Range.text]
  rw [htext, Text.fields_append_cons Address.colon_not_mem_text,
    Text.fields_of_not_mem Address.colon_not_mem_text]

/-- The text of a range between addresses that can be read is read as the range. -/
theorem Reference.read_text {r : Range} (hstart : r.start.IsReadable) (hstop : r.stop.IsReadable) :
    read r.text = .ok (.range r) := by
  simp only [read, r.fields_text, String.ofList_toList, Address.read_text hstart,
    Address.read_text hstop]
  rfl

namespace Address

/-- Letters name a column and a column its letters, so addresses can be used as keys: however they
are spelled and wherever they come from, they are the same key and have the same text if they have
the same row and column, and they and the ranges between them are read again from their texts. -/
theorem addresses_are_keys :
    (∀ n : Nat, ∃ letters, Column.nameOfRaw (.whole n) = .ok letters ∧
      Column.ofRaw (.text letters) = .ok n) ∧
    (∀ w : String, w.toList ≠ [] → (∀ c ∈ w.toList, c.isAlpha = true) →
      ∃ n : Nat, Column.ofRaw (.text w) = .ok n ∧
        Column.nameOfRaw (.whole n) = .ok (Text.upper w)) ∧
    (∀ (row col : Nat) (brackets : Brackets),
      (Nat.toDigits 10 (row + 1)).length ≤ maxRowDigits →
        let pair := RawValue.sequence brackets [.whole row, .whole col]
        ofRaw pair = .ok ⟨row, col⟩ ∧
          ∃ text, pairText (.whole row) (.whole col) pair = .ok text ∧
            ofRaw (.text text) = .ok ⟨row, col⟩) ∧
    (∀ (s : String) (a : Address), ofRaw (.text s) = .ok a ↔
      ∃ p : Spelling, p.text = s.toList ∧ p.address = a ∧
        a.text.toList = p.letters.map Char.toUpper ++ Nat.toDigits 10 p.rowNumber) ∧
    (∀ a b : Address, a.IsObtained → b.IsObtained →
      (a.key = b.key ↔ a.row = b.row ∧ a.col = b.col) ∧
        (a.text = b.text ↔ a.row = b.row ∧ a.col = b.col) ∧ ofRaw (.text a.text) = .ok a) ∧
    ∀ r : Range, r.start.IsObtained → r.stop.IsObtained →
      Reference.ofRaw (.text r.text) = .ok (.range r) := by
  refine ⟨?_, ?_, ?_, ?_, ?_, ?_⟩
  · intro n
    refine ⟨_, Column.nameOfRaw_natCast n, ?_⟩
    rw [Column.ofRaw_letters Column.isAlpha_of_mem_letters (Column.letters_ne_nil n),
      Column.index_letters]
  · intro w hne hletters
    have hupper : String.ofList (w.toList.map Char.toUpper) = Text.upper w := by
      rw [← Text.toList_upper fun c hc =>
        Text.toNat_lt_of_isAlphanum (Text.isAlphanum_of_isAlpha (hletters c hc)),
        String.ofList_toList]
    refine ⟨Column.index w.toList, ?_, ?_⟩
    · rw [← Column.ofRaw_letters hletters hne, String.ofList_toList]
    · rw [Column.nameOfRaw_natCast, Column.letters_index hletters hne, hupper]
  · intro row col brackets hlength pair
    have hreadable : IsReadable ⟨row, col⟩ :=
      isReadable_iff.2 ((Nat.length_toDigits_le_iff (by decide) (by decide)).1 hlength)
    exact ⟨ofRaw_pair brackets hreadable, _, pairText_natCast hreadable pair,
      Address.read_text hreadable⟩
  · intro s a
    constructor
    · intro h
      obtain ⟨p, hp, rfl⟩ := read_eq_ok_iff.1 h
      exact ⟨p, hp, rfl, p.toList_text_address⟩
    · rintro ⟨p, hp, ha, -⟩
      exact read_eq_ok_iff.2 ⟨p, hp, ha⟩
  · intro a b ha _
    exact ⟨key_eq_iff, text_eq_iff, Address.read_text ha.isReadable⟩
  · intro r hstart hstop
    exact Reference.read_text hstart.isReadable hstop.isReadable

/-- The second cell of the first column, as a text spells it, as a formula mentions it, as a pair
names it and as it is met in a range. -/
theorem addresses_are_keys_secondCell :
    Column.ofRaw (.text "aZ") = .ok 51 ∧ Column.nameOfRaw (.whole 51) = .ok (Text.upper "aZ") ∧
    (∃ r : Range, ofRaw (.text " a002\n") = .ok r.start ∧
      ofRaw (.sequence .round [.whole 0, .whole 1]) = .ok r.stop ∧
      (∃ e, Formula.tree ⟨"=a2", some "="⟩ = .ok e ∧ e.references = [.cell r.start]) ∧
      ⟨1, 0⟩ ∈ r.members ∧ (r.start.key = Address.key ⟨1, 0⟩ ↔ r.start.row = 1 ∧ r.start.col = 0) ∧
      Reference.ofRaw (.text "A2:B1") = .ok (.range r)) := by
  obtain ⟨-, hletters, hpair, -, hkey, hrange⟩ := addresses_are_keys
  have hlist : "aZ".toList = ['a', 'Z'] := rfl
  obtain ⟨n, hindex, hname⟩ := hletters "aZ" (by simp [hlist]) (by simp [hlist])
  have hfiftyOne : Column.ofRaw (.text "aZ") = .ok 51 := by cbv
  obtain rfl := Except.ok.inj (hfiftyOne.symm.trans hindex)
  have hstart : ofRaw (.text " a002\n") = .ok ⟨1, 0⟩ := rfl
  obtain ⟨hstop, -⟩ := hpair 0 1 .round (by decide)
  have htree : Formula.tree ⟨"=a2", some "="⟩ = .ok (.cell ⟨1, 0⟩) :=
    Formula.tree_eq_cell (by cbv) rfl
  have htext : Range.text ⟨⟨1, 0⟩, ⟨0, 1⟩⟩ = "A2:B1" := by cbv
  have hmember : (⟨1, 0⟩ : Address) ∈ Range.members ⟨⟨1, 0⟩, ⟨0, 1⟩⟩ := by decide
  have hspelled : IsObtained ⟨1, 0⟩ := .named hstart
  have hmet : IsObtained ⟨1, 0⟩ := .member (r := ⟨⟨1, 0⟩, ⟨0, 1⟩⟩) hspelled (.named hstop) hmember
  exact ⟨hindex, hname, ⟨⟨1, 0⟩, ⟨0, 1⟩⟩, hstart, hstop, ⟨_, htree, rfl⟩, hmember,
    (hkey _ _ hspelled hmet).1, htext ▸ hrange ⟨⟨1, 0⟩, ⟨0, 1⟩⟩ hspelled (.named hstop)⟩

end Address

end DecimalSheet
