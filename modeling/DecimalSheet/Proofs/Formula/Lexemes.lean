import DecimalSheet.Formula.Diagnosis
import DecimalSheet.Proofs.Formula.Scanning

/-!
# Lexemes

The tokens of a text are its lexemes, from left to right. Between them stand blank characters and
nothing else, and each lexeme is as long as a lexeme of its kind can be at its place. A text that
cannot be cut in this way is cut up to its first fault. Lexemes with blank characters between them
are found again.

## Main definitions

* `Token.IsLexeme t w`: the characters `w` by themselves make the token `t`
* `Token.IsRun t w`: the characters `w` are such as lexemes of the kind of `t` have
* `Token.Cuts rest position cs ls`: in front of `rest`, the text `cs` is cut into the tokens `ls`
* `Token.IsCut cs ls`: the tokens `ls` and the blank characters between them make up a text
* `Token.IsFirstFault before rest fault`: a text is at fault after its part `before`
* `Token.IsSpaced ws text`: the words `ws` with blank characters between them

## Main results

* `Token.scanned_scanFrom`: the scanner cuts a text, or its part in front of a fault
* `Token.Cuts.isCut`: what is cut is cut without loss
* `Token.scan_cuts`: the tokens of a text, the fault of a text without tokens, and lexemes that are
  found again
-/

namespace DecimalSheet

/-! ## The form of addresses -/

/-- Letters, then digits. -/
def Address.HasForm (cs : List Char) : Prop :=
  ∃ letters digits, cs = letters ++ digits ∧ (letters ≠ [] ∧ ∀ c ∈ letters, c.isAlpha = true) ∧
    digits ≠ [] ∧ ∀ c ∈ digits, c.isDigit = true

theorem Address.isCoordinate_iff {cs : List Char} : isCoordinate cs = true ↔ HasForm cs := by
  constructor
  · intro h
    obtain ⟨⟨hletters, hdigits⟩, hall⟩ : (cs.takeWhile Char.isAlpha ≠ [] ∧
        cs.dropWhile Char.isAlpha ≠ []) ∧ ∀ c ∈ cs.dropWhile Char.isAlpha, c.isDigit = true := by
      simpa [isCoordinate] using h
    exact ⟨_, _, List.takeWhile_append_dropWhile.symm,
      ⟨hletters, fun c hc => List.mem_takeWhile_imp hc⟩, hdigits, hall⟩
  · rintro ⟨letters, digits, rfl, ⟨hletters, hall⟩, hdigits, hall'⟩
    -- The letters end at the first digit.
    have hends : ∀ c ∈ digits.head?, c.isAlpha = false :=
      fun c hc => Text.isAlpha_of_isDigit (hall' c (List.mem_of_mem_head? hc))
    unfold isCoordinate
    rw [Text.takeWhile_append_run hall hends, Text.dropWhile_append_run hall hends]
    simpa [hletters, hdigits] using hall'

namespace Token

variable {c : Char} {cs cs' w rest : List Char} {ls : List Located} {l : Located} {t u : Token}
  {position : Nat}

theorem isName_of_hasForm (h : Address.HasForm w) : IsName w := by
  obtain ⟨letters, digits, rfl, ⟨hletters, hall⟩, -, hall'⟩ := h
  obtain ⟨c, letters, rfl⟩ := List.exists_cons_of_ne_nil hletters
  refine ⟨⟨c, rfl, hall c List.mem_cons_self⟩, List.forall_mem_append.2 ⟨fun d hd => ?_, ?_⟩⟩
  · exact isNameRest_of_isAlphanum (Text.isAlphanum_of_isAlpha (hall d hd))
  · exact fun d hd => isNameRest_of_isAlphanum (Text.isAlphanum_of_isDigit (hall' d hd))

/-! ## Lexemes -/

/-- The characters by themselves make the token: a literal of digits and points, a name, which is a
reference exactly if it consists of letters and digits behind them, or the symbol of the token. -/
inductive IsLexeme : Token → List Char → Prop
  | number {w : List Char} {d : Decimal} (hne : w ≠ []) (hw : ∀ c ∈ w, isNumeric c = true)
    (hd : Decimal.ofLiteral? (String.ofList w) = some d) : IsLexeme (.number d) w
  | name {w : List Char} (h : IsName w) (hform : ¬Address.HasForm w) :
    IsLexeme (.name (String.ofList w)) w
  | reference {w : List Char} (h : Address.HasForm w) : IsLexeme (.reference (String.ofList w)) w
  | symbol {c : Char} {t : Token} (h : ofChar? c = some t) : IsLexeme t [c]

/-- The characters are such as the lexemes of the kind of the token have: digits and points for a
number, those of a name for a name or a reference, and a single one for other tokens. -/
def IsRun (t : Token) (w : List Char) : Prop :=
  match t with
  | number _ => w ≠ [] ∧ ∀ c ∈ w, isNumeric c = true
  | name _ | reference _ => IsName w
  | _ => w.length = 1

/-- The character continues a lexeme of the kind of the token. -/
def continues (t : Token) (c : Char) : Bool :=
  match t with
  | number _ => isNumeric c
  | name _ | reference _ => isNameRest c
  | _ => false

/-- The text does not continue a lexeme of the kind of the token. -/
def EndsRun (t : Token) (rest : List Char) : Prop := ∀ c ∈ rest.head?, t.continues c = false

/-- The text between `before` and `after` has the property, and no longer part around it has it. -/
def IsMaximal (P : List Char → Prop) (before w after : List Char) : Prop :=
  P w ∧ ∀ a b c d, before = a ++ b → after = c ++ d → P (b ++ w ++ c) → b = [] ∧ c = []

theorem isLexeme_ofName (h : IsName w) : IsLexeme (ofName w) w := by
  unfold ofName
  split
  · rename_i hform
    exact .reference (Address.isCoordinate_iff.1 hform)
  · rename_i hform
    exact .name h fun hw => hform (Address.isCoordinate_iff.2 hw)

theorem ofName_of_not_hasForm (h : ¬Address.HasForm w) : ofName w = .name (String.ofList w) :=
  if_neg fun hform => h (Address.isCoordinate_iff.1 hform)

theorem ofName_of_hasForm (h : Address.HasForm w) : ofName w = .reference (String.ofList w) :=
  if_pos (Address.isCoordinate_iff.2 h)

namespace IsLexeme

theorem isRun (h : IsLexeme t w) : t.IsRun w := by
  cases h with
  | number hne hw => exact ⟨hne, hw⟩
  | name h => exact h
  | reference h => exact isName_of_hasForm h
  | symbol h =>
    unfold ofChar? at h
    split at h <;> cases h <;> rfl

theorem ne_nil (h : IsLexeme t w) : w ≠ [] := by
  cases h with
  | number hne => exact hne
  | name h =>
    rintro rfl
    obtain ⟨⟨c, ⟨⟩, -⟩, -⟩ := h
  | reference h =>
    obtain ⟨letters, digits, rfl, ⟨hletters, -⟩, -⟩ := h
    simp [hletters]
  | symbol => simp

theorem isBlank_eq_false (h : IsLexeme t w) : ∀ c ∈ w, Text.isBlank c = false := by
  cases h with
  | number _ hw => exact fun c hc => (isBlank_of_isNameRest (isNameRest_of_isNumeric (hw c hc))).1
  | name h => exact fun c hc => (isBlank_of_isNameRest (h.2 c hc)).1
  | reference h => exact fun c hc => (isBlank_of_isNameRest ((isName_of_hasForm h).2 c hc)).1
  | symbol h => exact List.forall_mem_singleton.2 (isBlank_of_ofChar? h)

theorem isScanned (h : IsLexeme t w) : t.IsScanned := by
  cases h with
  | number _ hw hd =>
    exact Decimal.isLiteral_of_ofLiteral? (fun c hc => by simpa [isNumeric] using hw c hc) hd
  | name h => simpa [IsScanned] using h
  | reference h => simpa [IsScanned] using isName_of_hasForm h
  | symbol h =>
    unfold ofChar? at h
    split at h <;> cases h <;> trivial

/-- A lexeme is cut off where its run ends. -/
theorem scanFrom_append (h : IsLexeme t w) (hrest : t.EndsRun rest) :
    scanFrom position (w ++ rest) =
      (scanFrom (position + w.length) rest).map (⟨t, position⟩ :: ·) := by
  cases h with
  | number hne hw hd => exact scanFrom_number hne hw hd hrest
  | name h hform =>
    rw [← ofName_of_not_hasForm hform]
    exact scanFrom_name h hrest
  | reference h =>
    rw [← ofName_of_hasForm h]
    exact scanFrom_name (isName_of_hasForm h) hrest
  | symbol h => exact scanFrom_symbol h

/-- No token begins with a character that is neither a token by itself nor the beginning of a number
or of a name. -/
theorem head_cases (h : IsLexeme t (c :: w)) :
    ofChar? c ≠ none ∨ isNumeric c = true ∨ c.isAlpha = true := by
  generalize hcs : c :: w = cs at h
  cases h with
  | number _ hw => exact .inr (.inl (hw c (hcs ▸ List.mem_cons_self)))
  | name h =>
    obtain ⟨⟨d, hd, halpha⟩, -⟩ := h
    rw [← hcs] at hd
    exact .inr (.inr (Option.some.inj hd ▸ halpha))
  | reference h =>
    obtain ⟨⟨d, hd, halpha⟩, -⟩ := isName_of_hasForm h
    rw [← hcs] at hd
    exact .inr (.inr (Option.some.inj hd ▸ halpha))
  | symbol h =>
    obtain rfl := (List.cons.inj hcs).1
    exact .inl (by simp [h])

end IsLexeme

theorem IsRun.isNameRest (h : t.IsRun w) (hlength : w.length ≠ 1) :
    ∀ c ∈ w, isNameRest c = true := by
  cases t with
  | number d => exact fun c hc => isNameRest_of_isNumeric (h.2 c hc)
  | name | reference => exact h.2
  | _ => exact absurd h hlength

/-- A part of a lexeme that begins a run of another lexeme does not end before this run does. -/
theorem continues_of_isRun {a b : List Char} (hu : u.IsRun (b ++ c :: cs))
    (ht : IsLexeme t (a ++ b)) (hb : b ≠ []) : t.continues c = true := by
  obtain ⟨x, b, rfl⟩ := List.exists_cons_of_ne_nil hb
  have hx : x ∈ a ++ x :: b := List.mem_append_right a List.mem_cons_self
  have hrest : ∀ d ∈ x :: b ++ c :: cs, isNameRest d = true := hu.isNameRest (by simp)
  have hc : c ∈ x :: b ++ c :: cs := List.mem_append_right _ List.mem_cons_self
  generalize hw : a ++ x :: b = w at ht hx
  cases ht with
  | number _ hall =>
    -- The run begins with a digit or a point, so it is that of a number, too.
    cases u with
    | number d => exact hu.2 c hc
    | name | reference =>
      obtain ⟨⟨y, hy, halpha⟩, -⟩ := hu
      obtain rfl := Option.some.inj hy
      cases (isNumeric_of_isAlpha halpha).symm.trans (hall _ hx)
    | _ => simp [IsRun] at hu
  | name | reference => exact hrest c hc
  | symbol h =>
    -- a character of a name or a number is no token by itself
    obtain rfl := List.mem_singleton.1 hx
    rw [(isBlank_of_isNameRest (hrest _ List.mem_cons_self)).2] at h
    cases h

/-! ## Cutting -/

/-- In front of `rest`, the text is cut into tokens at positions that are counted from the given one
on: it consists of lexemes, each as far as it goes, and of blank characters. -/
inductive Cuts (rest : List Char) : Nat → List Char → List Located → Prop
  | nil {position : Nat} : Cuts rest position [] []
  | blank {position : Nat} {c : Char} {cs : List Char} {ls : List Located}
    (hc : Text.isBlank c = true) (h : Cuts rest (position + 1) cs ls) :
    Cuts rest position (c :: cs) ls
  | lexeme {position : Nat} {t : Token} {w cs : List Char} {ls : List Located}
    (hw : IsLexeme t w) (hends : t.EndsRun (cs ++ rest))
    (h : Cuts rest (position + w.length) cs ls) : Cuts rest position (w ++ cs) (⟨t, position⟩ :: ls)

/-- The text is at fault at its first character, which has the given position. -/
inductive IsFault (position : Nat) : List Char → Fault → Prop
  | stray {c : Char} {cs : List Char} (hblank : Text.isBlank c = false)
    (hnone : ∀ t w, ¬IsLexeme t (c :: w)) : IsFault position (c :: cs) (.strayCharacter position c)
  | number {w cs : List Char} (hne : w ≠ []) (hw : ∀ c ∈ w, isNumeric c = true)
    (hends : ∀ c ∈ cs.head?, isNumeric c = false)
    (hnone : Decimal.ofLiteral? (String.ofList w) = none) :
    IsFault position (w ++ cs) (.invalidNumber (.text (String.ofList w)))

/-- What comes of a text: it is cut as a whole, or in front of a fault. -/
inductive Scanned (position : Nat) (cs : List Char) : Except Fault (List Located) → Prop
  | ok {ls : List Located} (h : Cuts [] position cs ls) : Scanned position cs (.ok ls)
  | error (before : List Char) {rest : List Char} {ls : List Located} {fault : Fault}
    (hcs : cs = before ++ rest) (h : Cuts rest position before ls)
    (hfault : IsFault (position + before.length) rest fault) : Scanned position cs (.error fault)

namespace Scanned

variable {x : Except Fault (List Located)}

theorem blank (hc : Text.isBlank c = true) (h : Scanned (position + 1) cs x) :
    Scanned position (c :: cs) x := by
  cases h with
  | ok h => exact .ok (.blank hc h)
  | error before hcs h hfault =>
    rw [Nat.add_assoc, Nat.add_comm 1] at hfault
    exact .error (c :: before) (by rw [hcs, List.cons_append]) (.blank hc h) hfault

theorem lexeme (hw : IsLexeme t w) (hends : t.EndsRun cs)
    (h : Scanned (position + w.length) cs x) :
    Scanned position (w ++ cs) (x.map (⟨t, position⟩ :: ·)) := by
  cases h with
  | ok h => exact .ok (.lexeme hw (by rwa [List.append_nil]) h)
  | error before hcs h hfault =>
    rw [Nat.add_assoc, ← List.length_append] at hfault
    exact .error (w ++ before) (by rw [hcs, List.append_assoc])
      (.lexeme hw (hcs ▸ hends) h) hfault

theorem symbol (hc : ofChar? c = some t) (h : Scanned (position + 1) cs x) :
    Scanned position (c :: cs) (x.map (⟨t, position⟩ :: ·)) := by
  refine lexeme (.symbol hc) (fun d _ => ?_) h
  unfold ofChar? at hc
  split at hc <;> cases hc <;> rfl

end Scanned

theorem head?_dropWhile {p : Char → Bool} : ∀ c ∈ (cs.dropWhile p).head?, p c = false := by
  intro c hc
  have hnot := List.head?_dropWhile_not p cs
  rw [Option.mem_def.1 hc] at hnot
  simpa using hnot

/-- The scanner cuts a text as a whole, or in front of its first fault. -/
theorem scanned_scanFrom (position : Nat) (cs : List Char) :
    Scanned position cs (scanFrom position cs) := by
  fun_induction scanFrom position cs with
  | case1 => exact .ok .nil
  | case2 position c rest hblank ih => exact ih.blank hblank
  | case3 position c rest hblank t hchar ih => exact ih.symbol hchar
  | case4 position c rest hblank hchar hnumeric run hd =>
    -- a run that is no number
    have hrun : ∀ c ∈ run, isNumeric c = true :=
      List.forall_mem_cons.2 ⟨hnumeric, fun c => List.mem_takeWhile_imp⟩
    have hcs : c :: rest = run ++ rest.dropWhile isNumeric := by simp [run]
    exact .error [] hcs .nil
      (.number (List.cons_ne_nil c _) hrun head?_dropWhile hd)
  | case5 position c rest hblank hchar hnumeric run d hd ih =>
    -- a number
    have hrun : ∀ c ∈ run, isNumeric c = true :=
      List.forall_mem_cons.2 ⟨hnumeric, fun c => List.mem_takeWhile_imp⟩
    have hcs : c :: rest = run ++ rest.dropWhile isNumeric := by simp [run]
    rw [hcs]
    exact ih.lexeme (.number (List.cons_ne_nil c _) hrun hd) head?_dropWhile
  | case6 position c rest hblank hchar hnumeric halpha run ih =>
    -- a name or a reference
    have hcs : c :: rest = run ++ rest.dropWhile isNameRest := by simp [run]
    have hends : (ofName run).EndsRun (rest.dropWhile isNameRest) := by
      unfold ofName
      split <;> exact head?_dropWhile
    rw [hcs]
    exact ih.lexeme (isLexeme_ofName (isName_cons_takeWhile halpha rest)) hends
  | case7 position c rest hblank hchar hnumeric halpha =>
    refine .error [] rfl .nil (.stray (by simpa using hblank) fun t w h => ?_)
    rcases h.head_cases with hsymbol | hnumber | hname
    · exact hsymbol hchar
    · exact hnumeric hnumber
    · exact halpha hname

/-! ## Places of tokens -/

namespace Cuts

/-- A text that is cut is scanned up to its end. -/
theorem scanFrom_append (h : Cuts rest position cs ls) :
    scanFrom position (cs ++ rest) =
      (scanFrom (position + cs.length) rest).map (ls ++ ·) := by
  induction h with
  | @nil position =>
    rw [List.nil_append, List.length_nil, Nat.add_zero]
    cases scanFrom position rest <;> rfl
  | @blank position c cs ls hc _ ih =>
    rw [List.cons_append, scanFrom_blank hc, ih, List.length_cons, Nat.add_assoc, Nat.add_comm 1]
  | @lexeme position t w cs ls hw hends _ ih =>
    rw [List.append_assoc, hw.scanFrom_append hends, ih, List.length_append, Nat.add_assoc]
    cases scanFrom (position + (w.length + cs.length)) rest <;> rfl

/-- What follows does not matter for a text that is cut. -/
theorem without_rest (h : Cuts rest position cs ls) : Cuts [] position cs ls := by
  induction h with
  | nil => exact .nil
  | blank hc _ ih => exact .blank hc ih
  | @lexeme position t w cs ls hw hends _ ih =>
    refine .lexeme hw (fun c hc => hends c ?_) ih
    cases cs with
    | nil => cases hc
    | cons d cs => exact hc

theorem scanFrom_eq_ok (h : Cuts rest position cs ls) : scanFrom position cs = .ok ls := by
  have hcs := h.without_rest.scanFrom_append
  rw [List.append_nil] at hcs
  rw [hcs, scanFrom]
  exact congrArg Except.ok (List.append_nil ls)

open ParseFailure in
theorem le_positionAt (h : Cuts rest position cs ls) (i : Nat) :
    position ≤ positionAt ls (position + cs.length) i := by
  induction h generalizing i with
  | nil => exact Nat.le_refl _
  | @blank position c cs ls hc _ ih =>
    rw [List.length_cons, Nat.add_comm cs.length, ← Nat.add_assoc]
    exact Nat.le_trans (Nat.le_succ position) (ih i)
  | @lexeme position t w cs ls hw hends _ ih =>
    cases i with
    | zero => exact Nat.le_refl _
    | succ i =>
      rw [List.length_append, ← Nat.add_assoc]
      exact Nat.le_trans (Nat.le_add_right position w.length) (ih i)

open ParseFailure in
/-- The positions of the tokens increase up to that of the end. -/
theorem positionAt_lt (h : Cuts rest position cs ls) {i j : Nat} (hij : i < j)
    (hj : j ≤ ls.length) :
    positionAt ls (position + cs.length) i < positionAt ls (position + cs.length) j := by
  induction h generalizing i j with
  | nil => exact absurd hj (by simp; omega)
  | @blank position c cs ls hc _ ih =>
    rw [List.length_cons, Nat.add_comm cs.length, ← Nat.add_assoc]
    exact ih hij hj
  | @lexeme position t w cs ls hw hends h ih =>
    obtain ⟨j, rfl⟩ := Nat.exists_eq_add_one_of_ne_zero (Nat.ne_zero_of_lt hij)
    rw [List.length_append, ← Nat.add_assoc]
    cases i with
    | zero =>
      -- A lexeme is not empty, so the next one begins later.
      have hlength := List.length_pos_of_ne_nil hw.ne_nil
      have hnext := h.le_positionAt j
      show position < positionAt ls _ j
      omega
    | succ i => exact ih (Nat.lt_of_succ_lt_succ hij) (Nat.le_of_succ_le_succ hj)

/-- No run of a lexeme reaches from a text that is cut into what follows it. -/
theorem eq_nil_of_isRun (h : Cuts rest position cs ls) {a b after : List Char} (hcs : cs = a ++ b)
    (hrun : t.IsRun (b ++ c :: after)) (hrest : rest.head? = some c) : b = [] := by
  -- Otherwise the run begins in the last lexeme or the last blank character that `b` touches.
  induction h generalizing a with
  | nil => exact (List.append_eq_nil_iff.1 hcs.symm).2
  | @blank position d cs ls hd _ ih =>
    cases a with
    | cons x a => exact ih (List.cons.inj hcs).2
    | nil =>
      obtain rfl : d :: cs = b := hcs
      have hnot := (isBlank_of_isNameRest (hrun.isNameRest (by simp) d List.mem_cons_self)).1
      rw [hd] at hnot
      cases hnot
  | @lexeme position u w cs ls hw hends h ih =>
    rcases List.append_eq_append_iff.1 hcs with ⟨a', rfl, rfl⟩ | ⟨b', rfl, rfl⟩
    · exact ih rfl
    · by_cases hb' : b' = []
      · subst hb'
        exact ih (a := []) rfl
      · -- The lexeme would go on with the first character behind it.
        obtain ⟨d, hd, tail, htail⟩ : ∃ d ∈ (cs ++ rest).head?, ∃ tail,
            cs ++ c :: after = d :: tail := by
          cases cs with
          | nil => exact ⟨c, hrest, after, rfl⟩
          | cons d cs => exact ⟨d, rfl, _, rfl⟩
        rw [List.append_assoc, htail] at hrun
        have hcontinues := continues_of_isRun hrun hw hb'
        rw [hends d hd] at hcontinues
        cases hcontinues

end Cuts

/-- The token stands in the text as a lexeme with the characters `w`, which is as long as a lexeme
of its kind can be at this place. -/
def Stands (cs : List Char) (l : Located) (w : List Char) : Prop :=
  IsLexeme l.token w ∧ ∃ before after, cs = before ++ w ++ after ∧ before.length = l.position ∧
    IsMaximal l.token.IsRun before w after

/-- A run around a lexeme is not longer than the lexeme. -/
theorem Cuts.isMaximal {before after : List Char} (h : Cuts (w ++ after) position before ls)
    (hw : IsLexeme t w) (hends : t.EndsRun after) : IsMaximal t.IsRun before w after := by
  refine ⟨hw.isRun, fun a b c d hbefore hafter hrun => ?_⟩
  obtain ⟨x, v, rfl⟩ := List.exists_cons_of_ne_nil hw.ne_nil
  obtain rfl : b = [] := by
    rw [List.append_assoc, List.cons_append] at hrun
    exact h.eq_nil_of_isRun hbefore hrun rfl
  refine ⟨rfl, ?_⟩
  -- A character behind the lexeme would continue it.
  cases c with
  | nil => rfl
  | cons y c =>
    have hcontinues := continues_of_isRun (a := []) (b := x :: v) hrun hw (List.cons_ne_nil x v)
    rw [hends y (hafter ▸ rfl)] at hcontinues
    cases hcontinues

namespace Cuts

/-- The part of a text in front of a lexeme is cut, too. -/
def Splits (rest : List Char) (position : Nat) (cs : List Char) (l : Located) (w : List Char) :
    Prop :=
  IsLexeme l.token w ∧ ∃ before after ls, cs = before ++ w ++ after ∧
    l.position = position + before.length ∧ l.token.EndsRun (after ++ rest) ∧
      Cuts (w ++ after ++ rest) position before ls

theorem Splits.blank (hc : Text.isBlank c = true) (h : Splits rest (position + 1) cs l w) :
    Splits rest position (c :: cs) l w := by
  obtain ⟨hw, before, after, ls, rfl, hposition, hends, hcuts⟩ := h
  refine ⟨hw, c :: before, after, ls, rfl, ?_, hends, .blank hc hcuts⟩
  rw [hposition, List.length_cons]
  omega

theorem Splits.lexeme {v : List Char} (hv : IsLexeme t v) (hends : t.EndsRun (cs ++ rest))
    (h : Splits rest (position + v.length) cs l w) : Splits rest position (v ++ cs) l w := by
  obtain ⟨hw, before, after, ls, rfl, hposition, hends', hcuts⟩ := h
  refine ⟨hw, v ++ before, after, ⟨t, position⟩ :: ls, by simp, ?_, hends', .lexeme hv ?_ hcuts⟩
  · rw [hposition, List.length_append]
    omega
  · simpa using hends

theorem splits_head {t : Token} (hw : IsLexeme t w) (hends : t.EndsRun (cs ++ rest)) :
    Splits rest position (w ++ cs) ⟨t, position⟩ w :=
  ⟨hw, [], cs, [], rfl, rfl, hends, .nil⟩

theorem Splits.stands (h : Splits [] 0 cs l w) : Stands cs l w := by
  obtain ⟨hw, before, after, ls, hcs, hposition, hends, hcuts⟩ := h
  rw [List.append_nil] at hends hcuts
  exact ⟨hw, before, after, hcs, by rw [hposition, Nat.zero_add], hcuts.isMaximal hw hends⟩

theorem exists_splits (h : Cuts rest position cs ls) (hl : l ∈ ls) :
    ∃ w, Splits rest position cs l w := by
  induction h with
  | nil => cases hl
  | blank hc _ ih =>
    obtain ⟨w, hw⟩ := ih hl
    exact ⟨w, hw.blank hc⟩
  | lexeme hv hends _ ih =>
    rcases List.mem_cons.1 hl with rfl | hl
    · exact ⟨_, splits_head hv hends⟩
    · obtain ⟨w, hw⟩ := ih hl
      exact ⟨w, hw.lexeme hv hends⟩

/-- A character that is not blank belongs to a lexeme. -/
theorem exists_splits_of_getElem? (h : Cuts rest position cs ls) {i : Nat} (hi : cs[i]? = some c)
    (hc : Text.isBlank c = false) :
    ∃ l ∈ ls, ∃ w, Splits rest position cs l w ∧
      l.position ≤ position + i ∧ position + i < l.position + w.length := by
  induction h generalizing i with
  | nil => cases hi
  | @blank position d cs ls hd _ ih =>
    cases i with
    | zero =>
      obtain rfl : d = c := Option.some.inj hi
      cases hd.symm.trans hc
    | succ i =>
      obtain ⟨l, hl, w, hw, hle, hlt⟩ := ih hi
      exact ⟨l, hl, w, hw.blank hd, by omega, by omega⟩
  | @lexeme position t v cs ls hv hends _ ih =>
    by_cases hlt : i < v.length
    · exact ⟨_, List.mem_cons_self, v, splits_head hv hends, by simp, by simpa using hlt⟩
    · rw [List.getElem?_append_right (Nat.not_lt.1 hlt)] at hi
      obtain ⟨l, hl, w, hw, hle, hlt'⟩ := ih hi
      exact ⟨l, List.mem_cons_of_mem _ hl, w, hw.lexeme hv hends, by omega, by omega⟩

end Cuts

open ParseFailure in
/-- The tokens and the blank characters between them make up the text. The end comes after all
tokens and counts as one more place. -/
structure IsCut (cs : List Char) (ls : List Located) : Prop where
  stop : positionAt ls cs.length ls.length = cs.length
  increasing : ∀ i j, i < j → j ≤ ls.length →
    positionAt ls cs.length i < positionAt ls cs.length j
  stands : ∀ l ∈ ls, ∃ w, Stands cs l w
  covered : ∀ i c, cs[i]? = some c → Text.isBlank c = true ∨
    ∃ l ∈ ls, ∃ w, Stands cs l w ∧ l.position ≤ i ∧ i < l.position + w.length

theorem Cuts.isCut (h : Cuts [] 0 cs ls) : IsCut cs ls where
  stop := by simp [ParseFailure.positionAt]
  increasing i j hij hj := by simpa using h.positionAt_lt hij hj
  stands l hl := by
    obtain ⟨w, hw⟩ := h.exists_splits hl
    exact ⟨w, hw.stands⟩
  covered i c hi := by
    refine or_iff_not_imp_left.2 fun hc => ?_
    obtain ⟨l, hl, w, hw, hle, hlt⟩ := h.exists_splits_of_getElem? hi (by simpa using hc)
    exact ⟨l, hl, w, hw.stands, by omega, by omega⟩

theorem cuts_of_scan {s : String} (h : scan s = .ok ls) : Cuts [] 0 s.toList ls := by
  have hscanned := scanned_scanFrom 0 s.toList
  rw [show scanFrom 0 s.toList = .ok ls from h] at hscanned
  cases hscanned with
  | ok hcuts => exact hcuts

/-- The tokens of a text make it up. -/
theorem isCut_of_scan {s : String} (h : scan s = .ok ls) : IsCut s.toList ls :=
  (cuts_of_scan h).isCut

/-- The tokens of a text are those of lexemes. -/
theorem exists_isLexeme_of_scan {s : String} (h : scan s = .ok ls) (hl : l ∈ ls) :
    ∃ w, IsLexeme l.token w := by
  obtain ⟨w, hw, -⟩ := (isCut_of_scan h).stands l hl
  exact ⟨w, hw⟩

/-! ## Faults and spaced words -/

/-- A text is at fault after its part `before`: the next character is not blank and begins no token,
or a run of digits and points that is as long as possible is no number. -/
inductive IsFirstFault (before : List Char) : List Char → Fault → Prop
  | stray {c : Char} {after : List Char} (hblank : Text.isBlank c = false)
    (hnone : ∀ t w, ¬IsLexeme t (c :: w)) :
    IsFirstFault before (c :: after) (.strayCharacter before.length c)
  | number {run after : List Char}
    (hmaximal : IsMaximal (fun w => w ≠ [] ∧ ∀ c ∈ w, isNumeric c = true) before run after)
    (hnone : Decimal.ofLiteral? (String.ofList run) = none) :
    IsFirstFault before (run ++ after) (.invalidNumber (.text (String.ofList run)))

theorem IsFault.isFirstFault {before : List Char} {fault : Fault} (h : Cuts rest 0 before ls)
    (hfault : IsFault before.length rest fault) : IsFirstFault before rest fault := by
  cases hfault with
  | stray hblank hnone => exact .stray hblank hnone
  | @number run after hne hw hends hnone =>
    refine .number ⟨⟨hne, hw⟩, fun a b c d hbefore hafter hrun => ?_⟩ hnone
    obtain ⟨x, v, rfl⟩ := List.exists_cons_of_ne_nil hne
    rw [List.append_assoc, List.cons_append] at hrun
    refine ⟨h.eq_nil_of_isRun (t := .number .one) hbefore hrun rfl, ?_⟩
    cases c with
    | nil => rfl
    | cons y c =>
      have hnumeric := hrun.2 y (by simp)
      rw [hends y (hafter ▸ rfl)] at hnumeric
      cases hnumeric

/-- The text consists of the words with blank characters between them. -/
inductive IsSpaced : List (List Char) → List Char → Prop
  | nil : IsSpaced [] []
  | last {w : List Char} : IsSpaced [w] w
  | more {w gap text : List Char} {ws : List (List Char)} (hgap : gap ≠ [])
    (hblank : ∀ c ∈ gap, Text.isBlank c = true) (h : IsSpaced ws text) :
    IsSpaced (w :: ws) (w ++ gap ++ text)

theorem endsRun_of_isBlank (t : Token) (hc : Text.isBlank c = true) : t.EndsRun (c :: rest) := by
  have hrest : isNameRest c = false := by
    by_contra hrest
    have hnot := (isBlank_of_isNameRest (by simpa using hrest)).1
    rw [hc] at hnot
    cases hnot
  have hnumeric : isNumeric c = false := by
    by_contra hnumeric
    have hname := isNameRest_of_isNumeric (by simpa using hnumeric)
    rw [hrest] at hname
    cases hname
  rintro _ ⟨rfl⟩
  cases t <;> first | exact hrest | exact hnumeric | rfl

theorem Cuts.blanks {gap : List Char} (hgap : ∀ c ∈ gap, Text.isBlank c = true)
    (h : Cuts rest (position + gap.length) cs ls) : Cuts rest position (gap ++ cs) ls := by
  induction gap generalizing position with
  | nil => exact h
  | cons c gap ih =>
    obtain ⟨hc, hgap⟩ := List.forall_mem_cons.1 hgap
    refine .blank hc (ih hgap ?_)
    rwa [Nat.add_assoc, Nat.add_comm 1]

/-- Lexemes with blank characters between them are found again. -/
theorem IsSpaced.exists_cuts {ts : List Token} {ws : List (List Char)} {text : List Char}
    (h : IsSpaced ws text) (hts : List.Forall₂ IsLexeme ts ws) (position : Nat) :
    ∃ ls, Cuts [] position text ls ∧ ls.map (·.token) = ts := by
  induction h generalizing ts position with
  | nil =>
    cases hts
    exact ⟨[], .nil, rfl⟩
  | @last w =>
    cases hts with
    | @cons t _ _ _ hw hts =>
      cases hts
      have hcuts : Cuts [] position (w ++ []) [⟨t, position⟩] := .lexeme hw (by rintro _ ⟨⟩) .nil
      rw [List.append_nil] at hcuts
      exact ⟨_, hcuts, rfl⟩
  | @more w gap text ws hgap hblank _ ih =>
    cases hts with
    | @cons t ts _ _ hw hts =>
      obtain ⟨ls, hls, rfl⟩ := ih hts (position + w.length + gap.length)
      obtain ⟨c, gap, rfl⟩ := List.exists_cons_of_ne_nil hgap
      refine ⟨⟨t, position⟩ :: ls, ?_, rfl⟩
      rw [List.append_assoc]
      exact .lexeme hw (endsRun_of_isBlank t (hblank c List.mem_cons_self)) (hls.blanks hblank)

/-- The tokens of a text and the blank characters between them make it up, each token with a lexeme
that is as long as possible. A text without tokens has tokens up to its first fault. Lexemes with
blank characters between them are found again. -/
theorem scan_cuts (s : String) :
    (∀ ls, scan s = .ok ls → IsCut s.toList ls) ∧
      (∀ fault, scan s = .error fault → ∃ before rest, s.toList = before ++ rest ∧
        (∃ ls, scan (String.ofList before) = .ok ls) ∧ IsFirstFault before rest fault) ∧
        ∀ ts ws text, List.Forall₂ IsLexeme ts ws → IsSpaced ws text →
          ∃ ls, scan (String.ofList text) = .ok ls ∧ ls.map (·.token) = ts := by
  refine ⟨fun ls => isCut_of_scan, fun fault h => ?_, fun ts ws text hts htext => ?_⟩
  · have hscanned := scanned_scanFrom 0 s.toList
    rw [show scanFrom 0 s.toList = .error fault from h] at hscanned
    cases hscanned with
    | error before hs hcuts hfault =>
      rw [Nat.zero_add] at hfault
      have hscan := hcuts.scanFrom_eq_ok
      rw [← String.toList_ofList (l := before)] at hscan
      exact ⟨before, _, hs, ⟨_, hscan⟩, hfault.isFirstFault hcuts⟩
  · obtain ⟨ls, hcuts, hls⟩ := htext.exists_cuts hts 0
    exact ⟨ls, by rw [scan, String.toList_ofList, hcuts.scanFrom_eq_ok], hls⟩

/-- A text of three tokens, a text that is at fault after its first one, and two words with a blank
character between them. -/
theorem scan_cuts_mixed :
    IsCut "a1 + 1.50".toList
        [⟨.reference "a1", 0⟩, ⟨.plus, 3⟩, ⟨.number ⟨false, 150, -2⟩, 5⟩] ∧
      (∃ before rest, "2 1..2".toList = before ++ rest ∧
        (∃ ls, scan (String.ofList before) = .ok ls) ∧
          IsFirstFault before rest (.invalidNumber (.text "1..2"))) ∧
        ∃ ls, scan (String.ofList ['x', ' ', '(']) = .ok ls ∧
          ls.map (·.token) = [.name "x", .opening] := by
  have hname : IsName ['x'] := isName_cons_takeWhile (c := 'x') (by decide) []
  have hlexeme : IsLexeme (.name "x") ['x'] := isLexeme_ofName hname
  have hspaced : IsSpaced [['x'], ['(']] (['x'] ++ [' '] ++ ['(']) :=
    .more (List.cons_ne_nil _ _) (List.forall_mem_singleton.2 (by cbv)) .last
  have hscan : scan "a1 + 1.50" =
      .ok [⟨.reference "a1", 0⟩, ⟨.plus, 3⟩, ⟨.number ⟨false, 150, -2⟩, 5⟩] := by cbv
  have hfault : scan "2 1..2" = .error (.invalidNumber (.text "1..2")) := by cbv
  exact ⟨(scan_cuts "a1 + 1.50").1 _ hscan, (scan_cuts "2 1..2").2.1 _ hfault,
    (scan_cuts "").2.2 _ _ _ (.cons hlexeme (.cons (.symbol rfl) .nil)) hspaced⟩

end Token

end DecimalSheet
