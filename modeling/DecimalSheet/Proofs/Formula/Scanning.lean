import DecimalSheet.Formula.Token.Scan
import DecimalSheet.Proofs.Address.Text
import DecimalSheet.Proofs.Decimal.Literal
import DecimalSheet.Proofs.Except

/-!
# Scanning lexemes

What the scanner makes of a text that begins with known lexemes. A lexeme is as long as possible,
so what follows a name or a number must not continue it. The positions of tokens matter only for
errors and are passed over here.

## Main definitions

* `Token.tokensFrom`: the tokens of a text without their positions
* `Token.EndsWord rest`: the text `rest` does not continue a name or a number
* `Token.Scans cs ts`: in front of a text that does not continue it, `cs` makes the tokens `ts`
* `Token.IsName cs`: the characters are those of a name
* `Token.IsScanned`: the form of the tokens of a text

## Main results

* `Token.scans_number`, `Token.scans_name`: the words
* `Token.Scans.append_cons`, `Token.Scans.symbol`: longer texts
-/

namespace DecimalSheet.Token

variable {c : Char} {cs cs' rest : List Char} {ts ts' : List Token} {t : Token} {position : Nat}

/-! ## The forms of tokens -/

/-- The characters are those of a name. -/
def IsName (cs : List Char) : Prop :=
  (∃ c ∈ cs.head?, c.isAlpha = true) ∧ ∀ c ∈ cs, isNameRest c = true

theorem isName_of_all {c : Char} {cs : List Char} (hc : c.isAlpha = true)
    (h : (c :: cs).all isNameRest = true) : IsName (c :: cs) :=
  ⟨⟨c, rfl, hc⟩, List.all_eq_true.1 h⟩

/-- The form of the tokens of a text. -/
def IsScanned : Token → Prop
  | number value => value.IsLiteral
  | name text | reference text => IsName text.toList
  | _ => True

theorem isNameRest_of_isAlphanum (h : c.isAlphanum = true) : isNameRest c = true := by
  simp [isNameRest, h]

theorem isNameRest_of_isNumeric (h : isNumeric c = true) : isNameRest c = true := by
  simp only [isNumeric, isNameRest, Char.isAlphanum, Bool.or_eq_true] at h ⊢
  tauto

theorem toNat_lt_of_isNameRest (h : isNameRest c = true) : c.toNat < 128 := by
  simp only [isNameRest, Bool.or_eq_true, beq_iff_eq] at h
  rcases h with (h | rfl) | rfl
  · exact Text.toNat_lt_of_isAlphanum h
  · decide
  · decide

/-- A character of a name or of a number is neither blank nor a token by itself. -/
theorem isBlank_of_isNameRest (h : isNameRest c = true) :
    Text.isBlank c = false ∧ ofChar? c = none := by
  have hall : ∀ n : Fin 128, isNameRest (Char.ofNat n) = true →
      Text.isBlank (Char.ofNat n) = false ∧ ofChar? (Char.ofNat n) = none := by decide
  exact Text.forall_ascii
    (P := fun c => isNameRest c = true → Text.isBlank c = false ∧ ofChar? c = none) hall
    (toNat_lt_of_isNameRest h) h

theorem isBlank_of_ofChar? (h : ofChar? c = some t) : Text.isBlank c = false := by
  unfold ofChar? at h
  split at h <;> first | rfl | cases h

theorem isNumeric_of_isAlpha (h : c.isAlpha = true) : isNumeric c = false := by
  have hdigit : c.isDigit = false := by
    by_contra hdigit
    simp [Text.isAlpha_of_isDigit (by simpa using hdigit)] at h
  have hpoint : c ≠ '.' := by
    rintro rfl
    exact absurd h (by decide)
  simp [isNumeric, hdigit, hpoint]

theorem isName_cons_takeWhile (hc : c.isAlpha = true) (cs : List Char) :
    IsName (c :: cs.takeWhile isNameRest) := by
  refine ⟨⟨c, rfl, hc⟩, List.forall_mem_cons.2 ⟨?_, fun d => List.mem_takeWhile_imp⟩⟩
  exact isNameRest_of_isAlphanum (Text.isAlphanum_of_isAlpha hc)

/-! ## Steps of the scanner -/

theorem scanFrom_blank (h : Text.isBlank c = true) :
    scanFrom position (c :: cs) = scanFrom (position + 1) cs := by
  rw [scanFrom, if_pos h]

theorem scanFrom_symbol (h : ofChar? c = some t) :
    scanFrom position (c :: cs) = (scanFrom (position + 1) cs).map (⟨t, position⟩ :: ·) := by
  rw [scanFrom, if_neg (by simp [isBlank_of_ofChar? h])]
  simp only [h]

theorem scanFrom_number {d : Decimal} (hne : cs ≠ []) (hcs : ∀ c ∈ cs, isNumeric c = true)
    (hd : Decimal.ofLiteral? (String.ofList cs) = some d)
    (hrest : ∀ c ∈ rest.head?, isNumeric c = false) :
    scanFrom position (cs ++ rest) =
      (scanFrom (position + cs.length) rest).map (⟨number d, position⟩ :: ·) := by
  obtain ⟨c, cs, rfl⟩ := List.exists_cons_of_ne_nil hne
  obtain ⟨hc, hcs⟩ := List.forall_mem_cons.1 hcs
  obtain ⟨hblank, hchar⟩ := isBlank_of_isNameRest (isNameRest_of_isNumeric hc)
  rw [List.cons_append, scanFrom, if_neg (by simp [hblank])]
  simp only [hchar, if_pos hc, Text.takeWhile_append_run hcs hrest,
    Text.dropWhile_append_run hcs hrest, hd]

theorem scanFrom_name (hcs : IsName cs) (hrest : ∀ c ∈ rest.head?, isNameRest c = false) :
    scanFrom position (cs ++ rest) =
      (scanFrom (position + cs.length) rest).map (⟨ofName cs, position⟩ :: ·) := by
  obtain ⟨⟨c, hhead, hc⟩, hcs⟩ := hcs
  obtain ⟨cs, rfl⟩ := List.head?_eq_some_iff.1 hhead
  obtain ⟨hfirst, hcs⟩ := List.forall_mem_cons.1 hcs
  obtain ⟨hblank, hchar⟩ := isBlank_of_isNameRest hfirst
  rw [List.cons_append, scanFrom, if_neg (by simp [hblank])]
  simp only [hchar, if_neg (by simp [isNumeric_of_isAlpha hc] : ¬isNumeric c = true), if_pos hc,
    Text.takeWhile_append_run hcs hrest, Text.dropWhile_append_run hcs hrest]

/-! ## Tokens without positions -/

/-- The tokens of a text without their positions. -/
def tokensFrom (position : Nat) (cs : List Char) : Except Fault (List Token) :=
  (scanFrom position cs).map fun ls => ls.map (·.token)

theorem tokensFrom_nil : tokensFrom position [] = .ok [] := by
  unfold tokensFrom scanFrom
  rfl

theorem tokensFrom_blank (h : Text.isBlank c = true) :
    tokensFrom position (c :: cs) = tokensFrom (position + 1) cs := by
  rw [tokensFrom, scanFrom_blank h, tokensFrom]

theorem map_tokens_cons {x : Except Fault (List Located)} {l : Located} :
    (x.map (l :: ·)).map (fun ls => ls.map (·.token)) =
      (x.map fun ls => ls.map (·.token)).map (l.token :: ·) := by
  cases x <;> rfl

theorem tokensFrom_symbol (h : ofChar? c = some t) :
    tokensFrom position (c :: cs) = (tokensFrom (position + 1) cs).map (t :: ·) := by
  rw [tokensFrom, scanFrom_symbol h, map_tokens_cons, tokensFrom]

/-- The text does not continue a name or a number. -/
def EndsWord (rest : List Char) : Prop := ∀ c ∈ rest.head?, isNameRest c = false

theorem tokensFrom_number {d : Decimal} (hne : cs ≠ []) (hcs : ∀ c ∈ cs, isNumeric c = true)
    (hd : Decimal.ofLiteral? (String.ofList cs) = some d) (hrest : EndsWord rest) :
    tokensFrom position (cs ++ rest) =
      (tokensFrom (position + cs.length) rest).map (number d :: ·) := by
  -- What does not continue a name does not continue a number either.
  have hends : ∀ c ∈ rest.head?, isNumeric c = false := by
    intro c hc
    by_contra hnumeric
    have hname := isNameRest_of_isNumeric (by simpa using hnumeric)
    rw [hrest c hc] at hname
    cases hname
  rw [tokensFrom, scanFrom_number hne hcs hd hends, map_tokens_cons, tokensFrom]

theorem tokensFrom_name (hcs : IsName cs) (hrest : EndsWord rest) :
    tokensFrom position (cs ++ rest) =
      (tokensFrom (position + cs.length) rest).map (ofName cs :: ·) := by
  rw [tokensFrom, scanFrom_name hcs hrest, map_tokens_cons, tokensFrom]

/-! ## Texts of known tokens -/

/-- In front of a text that does not continue it, the text `cs` makes the tokens `ts`. -/
def Scans (cs : List Char) (ts : List Token) : Prop :=
  ∀ position rest, EndsWord rest →
    tokensFrom position (cs ++ rest) = (tokensFrom (position + cs.length) rest).map (ts ++ ·)

theorem Scans.tokensFrom_eq (h : Scans cs ts) : tokensFrom position cs = .ok ts := by
  have hnil := h position [] (by rintro c ⟨⟩)
  rw [List.append_nil, tokensFrom_nil] at hnil
  rw [hnil]
  exact congrArg Except.ok (List.append_nil ts)

theorem scans_nil : Scans [] [] := by
  intro position rest _
  cases h : tokensFrom position rest <;> simp [h, Except.map]

theorem scans_number {d : Decimal} (h : d.IsLiteral) : Scans d.plain.toList [number d] := by
  intro position rest hrest
  obtain ⟨hnumeral, hread⟩ := h.ofUnsigned?_plain
  -- Plain notation is a run of digits and points, and the whole run is the literal.
  have hne : d.plain.toList ≠ [] := by
    intro hnil
    rw [hnil] at hread
    cases hread
  have hnumeric : ∀ c ∈ d.plain.toList, isNumeric c = true := by
    intro c hc
    simpa [isNumeric] using hnumeral c hc
  have hliteral : Decimal.ofLiteral? (String.ofList d.plain.toList) = some d := by
    rw [String.ofList_toList, Decimal.ofLiteral?_plain h]
  exact tokensFrom_number hne hnumeric hliteral hrest

theorem scans_name (h : IsName cs) : Scans cs [ofName cs] :=
  fun _ _ hrest => tokensFrom_name h hrest

theorem Scans.blank (h : Scans cs ts) (hc : Text.isBlank c = true) : Scans (c :: cs) ts := by
  intro position rest hrest
  rw [List.cons_append, tokensFrom_blank hc, h _ _ hrest, List.length_cons, Nat.add_assoc,
    Nat.add_comm 1]

theorem Scans.symbol (h : Scans cs ts) (hc : ofChar? c = some t) : Scans (c :: cs) (t :: ts) := by
  intro position rest hrest
  rw [List.cons_append, tokensFrom_symbol hc, h _ _ hrest, List.length_cons, Nat.add_assoc,
    Nat.add_comm 1]
  cases tokensFrom (position + (cs.length + 1)) rest <;> rfl

/-- One text after the other, the second of which does not continue the first. -/
theorem Scans.append_cons (h : Scans cs ts) (hc : isNameRest c = false)
    (h' : Scans (c :: cs') ts') : Scans (cs ++ c :: cs') (ts ++ ts') := by
  intro position rest hrest
  -- For the first text the second one is part of what follows.
  have hends : EndsWord (c :: cs' ++ rest) := by
    rintro _ ⟨rfl⟩
    exact hc
  rw [List.append_assoc, h _ _ hends, h' _ _ hrest, List.length_append, Nat.add_assoc]
  cases tokensFrom (position + (cs.length + (c :: cs').length)) rest <;>
    simp [Except.map]

/-- A text in parentheses. -/
theorem Scans.group (h : Scans cs ts) :
    Scans ('(' :: cs ++ [')']) (.opening :: ts ++ [.closing]) := by
  have hclose : Scans [')'] [.closing] := scans_nil.symbol rfl
  exact (h.append_cons (by decide) hclose).symbol rfl

theorem isName_text (a : Address) : IsName a.text.toList := by
  obtain ⟨c, cs, hcs⟩ := List.exists_cons_of_ne_nil (Column.letters_ne_nil a.col)
  have hc : c ∈ Column.letters a.col := by
    rw [hcs]
    exact List.mem_cons_self
  refine ⟨⟨c, ?_, Column.isAlpha_of_mem_letters c hc⟩, fun c hc => ?_⟩
  · rw [Address.toList_text, hcs]
    rfl
  · exact isNameRest_of_isAlphanum (Address.isAlphanum_of_mem_text c hc)

/-- The text of an address makes a reference. -/
theorem scans_address (a : Address) : Scans a.text.toList [reference a.text] := by
  have hscans := scans_name (isName_text a)
  rwa [ofName, if_pos Address.isCoordinate_text, String.ofList_toList] at hscans

/-! ## Names in upper and lower case -/

theorem IsName.isAscii (h : IsName cs) : Text.IsAscii cs :=
  fun c hc => toNat_lt_of_isNameRest (h.2 c hc)

theorem IsName.map {f : Char → Char}
    (halpha : ∀ n : Fin 128, (Char.ofNat n).isAlpha = true → (f (Char.ofNat n)).isAlpha = true)
    (hrest : ∀ n : Fin 128, isNameRest (Char.ofNat n) = true → isNameRest (f (Char.ofNat n)) = true)
    (h : IsName cs) : IsName (cs.map f) := by
  obtain ⟨⟨c, hhead, hc⟩, hcs⟩ := h
  refine ⟨⟨f c, by rw [List.head?_map, hhead]; rfl, ?_⟩, List.forall_mem_map.2 fun d hd => ?_⟩
  · exact Text.forall_ascii (P := fun c => c.isAlpha = true → (f c).isAlpha = true) halpha
      (toNat_lt_of_isNameRest (hcs c (List.mem_of_mem_head? hhead))) hc
  · exact Text.forall_ascii (P := fun c => isNameRest c = true → isNameRest (f c) = true) hrest
      (toNat_lt_of_isNameRest (hcs d hd)) (hcs d hd)

theorem IsName.upper {s : String} (h : IsName s.toList) : IsName (Text.upper s).toList := by
  rw [Text.toList_upper h.isAscii]
  exact h.map (by decide) (by decide)

theorem IsName.lower {s : String} (h : IsName s.toList) : IsName (Text.lower s).toList := by
  rw [Text.toList_lower h.isAscii]
  exact h.map (by decide) (by decide)

end DecimalSheet.Token
