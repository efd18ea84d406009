import DecimalSheet.Proofs.Formula.LetterCase
import Mathlib.Logic.Relation

/-!
# Spacing and letter case

A text is spelled anew by putting blank characters between its lexemes, by taking away blank
characters beside the character of an operator, and by changing the case of letters. Whatever is
done of this, and how often, the tokens stay the same up to the case of names, and formulas with
such tokens have the same tree, or a fault of the same kind at the same token.

## Main definitions

* `Token.IsBetween cs ls n`: no lexeme of a text goes on across a place
* `Token.IsRespelled s s'`: a text is spelled anew in one of the three ways
* `Fault.position?`: the position of which a fault is told

## Main results

* `Token.Cuts.exists_append`: a text that is cut is cut in front of a place and behind it
* `Token.Cuts.of_ends`: another text behind a text that is cut
* `Token.Cuts.recased`: a text with letters in another case
* `Formula.tree_respelled`: formulas that are spelled anew
-/

namespace DecimalSheet

namespace Token

variable {c : Char} {cs cs' u v w w' rest rest' gap : List Char} {ls : List Located} {t : Token}
  {position : Nat} {s s' : String}

/-! ## Parts of a text -/

namespace Cuts

/-- Counted from another position, the tokens are the same. -/
theorem exists_shifted (h : Cuts rest position cs ls) (position' : Nat) :
    ∃ ls', Cuts rest position' cs ls' ∧ ls'.map (·.token) = ls.map (·.token) := by
  induction h generalizing position' with
  | nil => exact ⟨[], .nil, rfl⟩
  | blank hc _ ih =>
    obtain ⟨ls', hls', heq⟩ := ih (position' + 1)
    exact ⟨ls', .blank hc hls', heq⟩
  | @lexeme position t w cs ls hw hends _ ih =>
    obtain ⟨ls', hls', heq⟩ := ih (position' + w.length)
    exact ⟨⟨t, position'⟩ :: ls', .lexeme hw hends hls', congrArg (t :: ·) heq⟩

/-- Two texts that are cut are cut as one text. -/
theorem append {ls' : List Located} (h : Cuts (v ++ rest) position u ls)
    (h' : Cuts rest (position + u.length) v ls') : Cuts rest position (u ++ v) (ls ++ ls') := by
  induction h with
  | nil => exact h'
  | @blank position c cs ls hc _ ih =>
    refine .blank hc (ih ?_)
    rwa [Nat.add_assoc, Nat.add_comm 1]
  | @lexeme position t w cs ls hw hends _ ih =>
    rw [List.append_assoc]
    refine .lexeme hw (by rwa [List.append_assoc]) (ih ?_)
    rwa [Nat.add_assoc, ← List.length_append]

/-- A text that is cut is cut in front of a place and behind it, unless a lexeme goes on across the
place. -/
theorem exists_append (h : Cuts rest position cs ls) (hcs : cs = u ++ v)
    (hbetween : ∀ l ∈ ls, ∀ w, Splits rest position cs l w →
      position + u.length ≤ l.position ∨ l.position + w.length ≤ position + u.length) :
    ∃ ls₁ ls₂, ls = ls₁ ++ ls₂ ∧ Cuts (v ++ rest) position u ls₁ ∧
      Cuts rest (position + u.length) v ls₂ := by
  induction h generalizing u with
  | @nil position =>
    obtain ⟨rfl, rfl⟩ := List.append_eq_nil_iff.1 hcs.symm
    exact ⟨[], [], rfl, .nil, .nil⟩
  | @blank position c cs ls hc h ih =>
    cases u with
    | nil =>
      obtain rfl : c :: cs = v := hcs
      exact ⟨[], ls, rfl, .nil, .blank hc h⟩
    | cons d u =>
      obtain ⟨rfl, htail⟩ := List.cons.inj hcs
      obtain ⟨ls₁, ls₂, rfl, h₁, h₂⟩ := ih htail fun l hl w hw => by
        have hside := hbetween l hl w (hw.blank hc)
        rw [List.length_cons] at hside
        omega
      refine ⟨ls₁, ls₂, rfl, .blank hc h₁, ?_⟩
      rwa [List.length_cons, Nat.add_comm u.length, ← Nat.add_assoc]
  | @lexeme position t w cs ls hw hends h ih =>
    rcases eq_or_ne u [] with rfl | hu
    · obtain rfl : w ++ cs = v := hcs
      exact ⟨[], _, rfl, .nil, .lexeme hw hends h⟩
    · -- The first lexeme is in front of the place.
      have hlength : w.length ≤ u.length := by
        have hside := hbetween _ List.mem_cons_self w (splits_head hw hends)
        have hpos := List.length_pos_iff.2 hu
        simp only at hside
        omega
      obtain ⟨u, rfl⟩ : ∃ u', u = w ++ u' := by
        rcases List.append_eq_append_iff.1 hcs with ⟨a, hu, -⟩ | ⟨a, hw', -⟩
        · exact ⟨a, hu⟩
        · have hnil : a = [] := by
            rw [hw', List.length_append] at hlength
            exact List.length_eq_zero_iff.1 (by omega)
          exact ⟨[], by rw [hw', hnil, List.append_nil, List.append_nil]⟩
      rw [List.append_assoc] at hcs
      obtain ⟨ls₁, ls₂, rfl, h₁, h₂⟩ := ih (List.append_cancel_left hcs) fun l hl v hv => by
        have hside := hbetween l (List.mem_cons_of_mem _ hl) v (hv.lexeme hw hends)
        rw [List.length_append] at hside
        omega
      refine ⟨_, ls₂, rfl, .lexeme hw ?_ h₁, ?_⟩
      · rwa [← List.append_assoc, ← List.append_cancel_left hcs]
      · rwa [List.length_append, ← Nat.add_assoc]

/-- Behind a text that is cut may stand another text that does not continue its last lexeme. -/
theorem of_ends (h : Cuts rest position cs ls)
    (hends : ∀ t w, IsLexeme t w → w <:+ cs → t.EndsRun rest') : Cuts rest' position cs ls := by
  induction h with
  | nil => exact .nil
  | @blank position c cs ls hc _ ih =>
    exact .blank hc (ih fun t w hw hsuffix =>
      hends t w hw (hsuffix.trans (List.suffix_cons c cs)))
  | @lexeme position t w cs ls hw hends' _ ih =>
    refine .lexeme hw ?_ (ih fun t' w' hw' hsuffix =>
      hends t' w' hw' (hsuffix.trans (List.suffix_append w cs)))
    cases cs with
    | nil =>
      rw [List.nil_append]
      exact hends t w hw (by rw [List.append_nil])
    | cons d cs => exact fun c hc => hends' c hc

/-- Blank characters at the front are passed over. -/
theorem drop_blanks (hgap : ∀ c ∈ gap, Text.isBlank c = true)
    (h : Cuts rest position (gap ++ cs) ls) : Cuts rest (position + gap.length) cs ls := by
  induction gap generalizing position with
  | nil => exact h
  | cons c gap ih =>
    obtain ⟨hc, hgap⟩ := List.forall_mem_cons.1 hgap
    rw [List.length_cons, Nat.add_comm gap.length, ← Nat.add_assoc]
    refine ih hgap ?_
    generalize htext : c :: gap ++ cs = text at h
    cases h with
    | nil => cases htext
    | blank _ h =>
      obtain ⟨-, rfl⟩ := List.cons.inj htext
      exact h
    | @lexeme _ t w cs ls hw hends h =>
      -- no lexeme begins with a blank character
      obtain ⟨d, w, rfl⟩ := List.exists_cons_of_ne_nil hw.ne_nil
      obtain ⟨rfl, -⟩ := List.cons.inj htext
      exact absurd (hc.symm.trans (hw.isBlank_eq_false c List.mem_cons_self)) (by decide)

/-- No lexeme goes on across a blank character. -/
theorem exists_append_of_isBlank (hc : Text.isBlank c = true)
    (h : Cuts rest position (u ++ c :: v) ls) :
    ∃ ls₁ ls₂, ls = ls₁ ++ ls₂ ∧ Cuts (c :: v ++ rest) position u ls₁ ∧
      Cuts rest (position + u.length) (c :: v) ls₂ := by
  refine h.exists_append rfl fun l _ w hw => ?_
  obtain ⟨hlexeme, before, after, -, hcs, hposition, -⟩ := hw
  by_contra hacross
  rw [not_or, not_le, not_le] at hacross
  -- The blank character would belong to the lexeme.
  have hmem : c ∈ w := by
    refine List.mem_of_getElem? (i := u.length - before.length) ?_
    have hget : (u ++ c :: v)[u.length]? = some c := by simp
    rwa [hcs, List.append_assoc, List.getElem?_append_right (by omega),
      List.getElem?_append_left (by omega)] at hget
  exact absurd (hc.symm.trans (hlexeme.isBlank_eq_false c hmem)) (by decide)

end Cuts

/-! ## Spacing -/

theorem isNameRest_of_continues (h : t.continues c = true) : isNameRest c = true := by
  cases t with
  | number => exact isNameRest_of_isNumeric h
  | name | reference => exact h
  | _ => cases h

/-- The character of an operator does not continue a lexeme. -/
theorem endsRun_of_ofChar? (t : Token) (hc : ofChar? c ≠ none) : t.EndsRun (c :: cs) := by
  rintro _ ⟨rfl⟩
  by_contra hcontinues
  rw [Bool.not_eq_false] at hcontinues
  exact hc (isBlank_of_isNameRest (isNameRest_of_continues hcontinues)).2

/-- Nothing continues the character of an operator. -/
theorem IsLexeme.endsRun_of_mem (h : IsLexeme t w) (hmem : c ∈ w) (hc : ofChar? c ≠ none) :
    t.EndsRun rest := by
  cases h with
  | number _ hw =>
    exact absurd (isBlank_of_isNameRest (isNameRest_of_isNumeric (hw c hmem))).2 hc
  | name hw => exact absurd (isBlank_of_isNameRest (hw.2 c hmem)).2 hc
  | reference hw => exact absurd (isBlank_of_isNameRest ((isName_of_hasForm hw).2 c hmem)).2 hc
  | symbol hsymbol =>
    intro d _
    unfold ofChar? at hsymbol
    split at hsymbol <;> cases hsymbol <;> rfl

/-- Blank characters may be put between two parts of a text. -/
theorem Cuts.exists_spaced {ls₁ ls₂ : List Located} (hgap : ∀ c ∈ gap, Text.isBlank c = true)
    (hu : Cuts v 0 u ls₁) (hv : Cuts [] u.length v ls₂) :
    ∃ ls', Cuts [] 0 (u ++ gap ++ v) ls' ∧
      ls'.map (·.token) = (ls₁ ++ ls₂).map (·.token) := by
  obtain ⟨ls₂', hv', heq⟩ := hv.exists_shifted (0 + u.length + gap.length)
  have hu' : Cuts (gap ++ v ++ []) 0 u ls₁ := by
    cases gap with
    | nil => simpa using hu
    | cons c gap => exact hu.of_ends fun t _ _ _ => endsRun_of_isBlank t (hgap c List.mem_cons_self)
  refine ⟨ls₁ ++ ls₂', ?_, by rw [List.map_append, List.map_append, heq]⟩
  rw [List.append_assoc]
  exact hu'.append (hv'.blanks hgap)

/-- Blank characters beside the character of an operator may be taken away. -/
theorem Cuts.exists_unspaced (hgap : ∀ c ∈ gap, Text.isBlank c = true)
    (hsymbol : (∃ c ∈ u.getLast?, ofChar? c ≠ none) ∨ ∃ c ∈ v.head?, ofChar? c ≠ none)
    (h : Cuts [] 0 (u ++ gap ++ v) ls) :
    ∃ ls', Cuts [] 0 (u ++ v) ls' ∧ ls'.map (·.token) = ls.map (·.token) := by
  cases gap with
  | nil => exact ⟨ls, by simpa using h, rfl⟩
  | cons c gap =>
    rw [List.append_assoc] at h
    obtain ⟨ls₁, ls₂, rfl, hu, hv⟩ :=
      h.exists_append_of_isBlank (hgap c List.mem_cons_self)
    have hv : Cuts [] (0 + u.length + (c :: gap).length) v ls₂ := hv.drop_blanks hgap
    obtain ⟨ls₂', hv', heq⟩ := hv.exists_shifted (0 + u.length)
    have hu' : Cuts (v ++ []) 0 u ls₁ := by
      refine hu.of_ends fun t w hw hsuffix => ?_
      rw [List.append_nil]
      rcases hsymbol with ⟨d, hd, hchar⟩ | ⟨d, hd, hchar⟩
      · -- the last lexeme of the first part ends with the character
        obtain ⟨x, rfl⟩ := hsuffix
        rw [List.getLast?_append_of_ne_nil x hw.ne_nil] at hd
        exact hw.endsRun_of_mem (List.mem_of_mem_getLast? hd) hchar
      · obtain ⟨v, rfl⟩ := List.head?_eq_some_iff.1 hd
        exact endsRun_of_ofChar? t hchar
    exact ⟨ls₁ ++ ls₂', hu'.append hv', by rw [List.map_append, List.map_append, heq]⟩

/-! ## Letter case -/

theorem isNumeric_toLower (c : Char) : isNumeric c.toLower = isNumeric c :=
  Text.apply_toLower (fun _ => isNumeric_of_isAlpha) c

theorem isNameRest_toLower (c : Char) : isNameRest c.toLower = isNameRest c :=
  Text.apply_toLower (fun _ h => isNameRest_of_isAlphanum (Text.isAlphanum_of_isAlpha h)) c

theorem continues_toLower (t : Token) (c : Char) : t.continues c.toLower = t.continues c := by
  cases t with
  | number => exact isNumeric_toLower c
  | name | reference => exact isNameRest_toLower c
  | _ => rfl

theorem continues_lowered (t : Token) : t.lowered.continues = t.continues := by cases t <;> rfl

/-- What does not depend on the case of a character holds in either case. -/
theorem forall_mem_of_map_toLower {p : Char → Bool} (hp : ∀ c : Char, p c.toLower = p c)
    (hcs : cs'.map Char.toLower = cs.map Char.toLower) (h : ∀ c ∈ cs, p c = true) :
    ∀ c ∈ cs', p c = true := by
  intro c hc
  have hmem : c.toLower ∈ cs.map Char.toLower := hcs ▸ List.mem_map_of_mem hc
  obtain ⟨d, hd, heq⟩ := List.mem_map.1 hmem
  rw [← hp c, ← heq, hp d, h d hd]

/-- A text without letters has no other case. -/
theorem eq_of_map_toLower (hcs : cs'.map Char.toLower = cs.map Char.toLower)
    (h : ∀ c ∈ cs, c.isAlpha = false) : cs' = cs := by
  have hself : ∀ cs : List Char, (∀ c ∈ cs, c.isAlpha = false) → cs.map Char.toLower = cs := by
    intro cs h
    exact (List.map_congr_left fun c hc => Text.toLower_eq_self (h c hc)).trans (List.map_id cs)
  have h' : ∀ c ∈ cs', (!c.isAlpha) = true :=
    forall_mem_of_map_toLower (fun c => by rw [Text.isAlpha_toLower]) hcs (by simpa using h)
  rw [← hself cs h, ← hcs, hself cs' (by simpa using h')]

theorem IsName.recased (h : IsName w) (hw : w'.map Char.toLower = w.map Char.toLower) :
    IsName w' := by
  obtain ⟨⟨c, hhead, hc⟩, hall⟩ := h
  refine ⟨?_, forall_mem_of_map_toLower isNameRest_toLower hw hall⟩
  obtain ⟨cs, rfl⟩ := List.head?_eq_some_iff.1 hhead
  cases w' with
  | nil => cases hw
  | cons d w' =>
    have hd := (List.cons.inj hw).1
    exact ⟨d, rfl, by rw [← Text.isAlpha_toLower, hd, Text.isAlpha_toLower, hc]⟩

theorem hasForm_iff_of_map_toLower (hw : w'.map Char.toLower = w.map Char.toLower) :
    Address.HasForm w' ↔ Address.HasForm w := by
  rw [← Address.isCoordinate_iff, ← Address.isCoordinate_iff, ← Address.isCoordinate_map_toLower,
    hw, Address.isCoordinate_map_toLower]

theorem lowered_ofList_eq (hw : w'.map Char.toLower = w.map Char.toLower) :
    Text.lowered (String.ofList w') = Text.lowered (String.ofList w) := by
  rw [Text.lowered, Text.lowered, String.toList_ofList, String.toList_ofList, hw]

/-- The characters of a reference are those of its text. -/
theorem IsLexeme.toList_eq_of_reference {text : String} (h : IsLexeme (.reference text) w) :
    text.toList = w := by
  generalize ht : Token.reference text = t at h
  cases h with
  | number | name => cases ht
  | reference =>
    rw [Token.reference.inj ht, String.toList_ofList]
  | symbol h =>
    subst ht
    unfold ofChar? at h
    split at h <;> cases h

/-- A lexeme with letters in another case is a lexeme of the same token, up to the case of its
name. -/
theorem IsLexeme.recased (h : IsLexeme t w) (hw : w'.map Char.toLower = w.map Char.toLower) :
    ∃ t', IsLexeme t' w' ∧ t'.lowered = t.lowered := by
  cases h with
  | number hne hnumeric hd =>
    have hself : w' = w := eq_of_map_toLower hw fun c hc => by
      by_contra halpha
      rw [Bool.not_eq_false] at halpha
      exact absurd ((hnumeric c hc).symm.trans (isNumeric_of_isAlpha halpha)) (by decide)
    exact ⟨_, hself ▸ .number hne hnumeric hd, rfl⟩
  | name hname hform =>
    exact ⟨_, .name (hname.recased hw) ((hasForm_iff_of_map_toLower hw).not.2 hform),
      congrArg Token.name (lowered_ofList_eq hw)⟩
  | reference hform =>
    exact ⟨_, .reference ((hasForm_iff_of_map_toLower hw).2 hform),
      congrArg Token.reference (lowered_ofList_eq hw)⟩
  | @symbol c t hc =>
    have hself : w' = [c] := eq_of_map_toLower hw (List.forall_mem_singleton.2 (by
      by_contra halpha
      rw [Bool.not_eq_false] at halpha
      have hrest := isNameRest_of_isAlphanum (Text.isAlphanum_of_isAlpha halpha)
      rw [(isBlank_of_isNameRest hrest).2] at hc
      cases hc))
    exact ⟨t, hself ▸ .symbol hc, rfl⟩

theorem EndsRun.recased {t' : Token} (h : t.EndsRun cs) (ht : t'.lowered = t.lowered)
    (hcs : cs'.map Char.toLower = cs.map Char.toLower) : t'.EndsRun cs' := by
  intro c hc
  have hhead : (cs.map Char.toLower).head? = some c.toLower := by
    rw [← hcs, List.head?_map, hc, Option.map_some]
  rw [List.head?_map] at hhead
  obtain ⟨d, hd, heq⟩ := Option.map_eq_some_iff.1 hhead
  rw [← continues_toLower, ← continues_lowered, ht, continues_lowered, ← heq, continues_toLower,
    h d hd]

/-- A text with letters in another case is cut into the same tokens, up to the case of names. -/
theorem Cuts.recased (h : Cuts rest position cs ls)
    (hcs : cs'.map Char.toLower = cs.map Char.toLower)
    (hrest : rest'.map Char.toLower = rest.map Char.toLower) :
    ∃ ls', Cuts rest' position cs' ls' ∧
      ls'.map (·.token.lowered) = ls.map (·.token.lowered) := by
  induction h generalizing cs' with
  | nil =>
    obtain rfl := List.map_eq_nil_iff.1 hcs
    exact ⟨[], .nil, rfl⟩
  | @blank position c cs ls hc _ ih =>
    obtain ⟨c', cs', rfl, hc', hcs'⟩ := List.map_eq_cons_iff.1 hcs
    obtain ⟨ls', hls', heq⟩ := ih hcs'
    refine ⟨ls', .blank ?_ hls', heq⟩
    rw [← Text.isBlank_toLower, hc', Text.isBlank_toLower, hc]
  | @lexeme position t w cs ls hw hends _ ih =>
    rw [List.map_append] at hcs
    obtain ⟨w', cs', rfl, hw', hcs'⟩ := List.map_eq_append_iff.1 hcs
    have hlength : w'.length = w.length := by simpa using congrArg List.length hw'
    obtain ⟨t', ht', hlowered⟩ := hw.recased hw'
    obtain ⟨ls', hls', heq⟩ := ih hcs'
    refine ⟨⟨t', position⟩ :: ls', .lexeme ht' ?_ (hlength ▸ hls'), ?_⟩
    · exact hends.recased hlowered (by rw [List.map_append, List.map_append, hcs', hrest])
    · exact congrArg₂ List.cons hlowered heq

/-! ## Spelling a text anew -/

/-- No lexeme of the text goes on across the place behind its first `n` characters. -/
def IsBetween (cs : List Char) (ls : List Located) (n : Nat) : Prop :=
  ∀ l ∈ ls, ∀ w, Stands cs l w → n ≤ l.position ∨ l.position + w.length ≤ n

/-- A text is spelled anew: blank characters are put between its lexemes, blank characters beside
the character of an operator are taken away, or letters are put in the other case. -/
inductive IsRespelled (s s' : String) : Prop
  | spaced {before gap after : List Char} {ls : List Located} (hs : s.toList = before ++ after)
    (hs' : s'.toList = before ++ gap ++ after) (hgap : ∀ c ∈ gap, Text.isBlank c = true)
    (hls : scan s = .ok ls) (hbetween : IsBetween s.toList ls before.length)
  | unspaced {before gap after : List Char} (hs : s.toList = before ++ gap ++ after)
    (hs' : s'.toList = before ++ after) (hgap : ∀ c ∈ gap, Text.isBlank c = true)
    (hsymbol : (∃ c ∈ before.getLast?, ofChar? c ≠ none) ∨ ∃ c ∈ after.head?, ofChar? c ≠ none)
  | recased (hs : s'.toList.map Char.toLower = s.toList.map Char.toLower)

/-- The tokens are the same, up to the case of names and references. -/
def Agree (ls ls' : List Located) : Prop :=
  ls'.map (·.token.lowered) = ls.map (·.token.lowered)

theorem agree_of_map_token {ls' : List Located} (h : ls'.map (·.token) = ls.map (·.token)) :
    Agree ls ls' := by
  have hlowered := congrArg (List.map Token.lowered) h
  rwa [List.map_map, List.map_map] at hlowered

theorem exists_scan_of_cuts {ls' : List Located} (h : Cuts [] 0 s'.toList ls')
    (hagree : Agree ls ls') : ∃ ls', scan s' = .ok ls' ∧ Agree ls ls' :=
  ⟨ls', h.scanFrom_eq_ok, hagree⟩

/-- A text that is spelled anew has the same tokens, up to the case of names. -/
theorem IsRespelled.exists_scan (h : IsRespelled s s') (hls : scan s = .ok ls) :
    ∃ ls', scan s' = .ok ls' ∧ Agree ls ls' := by
  have hcuts := cuts_of_scan hls
  cases h with
  | @spaced before gap after _ hs hs' hgap hls' hbetween =>
    obtain rfl := Except.ok.inj (hls.symm.trans hls')
    obtain ⟨ls₁, ls₂, rfl, hbefore, hafter⟩ := hcuts.exists_append hs fun l hl w hw => by
      simpa using hbetween l hl w hw.stands
    rw [List.append_nil] at hbefore
    rw [Nat.zero_add] at hafter
    obtain ⟨ls', hls', heq⟩ := Cuts.exists_spaced hgap hbefore hafter
    exact exists_scan_of_cuts (hs' ▸ hls') (agree_of_map_token heq)
  | @unspaced before gap after hs hs' hgap hsymbol =>
    obtain ⟨ls', hls', heq⟩ := Cuts.exists_unspaced hgap hsymbol (hs ▸ hcuts)
    exact exists_scan_of_cuts (hs' ▸ hls') (agree_of_map_token heq)
  | recased hs =>
    obtain ⟨ls', hls', heq⟩ := hcuts.recased hs rfl
    exact exists_scan_of_cuts hls' heq

/-- So has a text that is spelled anew several times. -/
theorem exists_scan_of_respelled (h : Relation.ReflTransGen IsRespelled s s')
    (hls : scan s = .ok ls) : ∃ ls', scan s' = .ok ls' ∧ Agree ls ls' := by
  induction h with
  | refl => exact ⟨ls, hls, rfl⟩
  | tail _ h ih =>
    obtain ⟨ls', hls', hagree⟩ := ih
    obtain ⟨ls'', hls'', hagree'⟩ := h.exists_scan hls'
    exact ⟨ls'', hls'', hagree'.trans hagree⟩

end Token

/-! ## Formulas that are spelled anew -/

open DecimalSheet.Token DecimalSheet.Expr

/-- The position of which a fault is told. -/
def Fault.position? : Fault → Option Nat
  | strayCharacter position _ | misplacedToken _ _ position => some position
  | rangeAsValue _ position => position
  | _ => none

open ParseFailure in
theorem ParseFailure.position?_fault {f : ParseFailure} (hdeep : f.misfit ≠ .tooDeep)
    (ls : List Located) (stop : Nat) :
    (f.fault ls stop).position? = some (positionAt ls stop (f.index ls)) := by
  rcases f.fault_cases hdeep ls stop with ⟨-, what, hcase⟩ | ⟨text, hcase⟩ <;> rw [hcase] <;> rfl

/-- The kind of a fault depends on the tokens without the case of names. -/
theorem ParseFailure.kind_fault_eq {f : ParseFailure} {ls ls' : List Located}
    (h : Agree ls ls') (stop stop' : Nat) :
    f.index ls' = f.index ls ∧ (f.fault ls' stop').kind = (f.fault ls stop).kind := by
  have hindex : f.index ls' = f.index ls := by
    have hlength := congrArg List.length h
    rw [List.length_map, List.length_map] at hlength
    rw [index, index, hlength]
  -- A colon is a colon in lower case, and nothing else is.
  have hany : ∀ (us : List Located) (i : Nat), us[i]?.any (fun l => l.token == Token.colon) =
      (us.map (·.token.lowered))[i]?.any fun t => t == Token.colon := by
    intro us i
    rw [List.getElem?_map]
    cases us[i]? with
    | none => rfl
    | some l =>
      rw [Option.map_some, Option.any_some, Option.any_some]
      cases l.token <;> rfl
  have hcolon : ∀ i : Nat, ls'[i]?.any (fun l => l.token == Token.colon) =
      ls[i]?.any fun l => l.token == Token.colon := fun i => by rw [hany, hany, h]
  refine ⟨hindex, ?_⟩
  unfold fault
  rw [hindex]
  cases f.misfit with
  | expected what =>
    simp only [hcolon]
    split <;> rfl
  | rangeAsOperand | rangeBeforeOperator | badReference | tooDeep => rfl

namespace Formula

variable {f f' : Formula} {ls ls' : List Located}

theorem isScanned_of_tokens (hls : f.tokens = .ok ls) :
    ∀ t ∈ ls.map (·.token), t.IsScanned := by
  refine List.forall_mem_map.2 fun l hl => ?_
  obtain ⟨w, hw⟩ := exists_isLexeme_of_scan hls hl
  exact hw.isScanned

/-- Tokens that agree are parsed alike. -/
theorem parse_eq_of_agree (hls : f.tokens = .ok ls) (hls' : f'.tokens = .ok ls')
    (h : Agree ls ls') :
    parse maxNesting (ls'.map (·.token)) = parse maxNesting (ls.map (·.token)) := by
  have hlowered : (ls'.map (·.token)).map Token.lowered = (ls.map (·.token)).map Token.lowered := by
    rw [List.map_map, List.map_map]
    exact h
  rw [← parse_map_lowered (isScanned_of_tokens hls), ← hlowered,
    parse_map_lowered (isScanned_of_tokens hls')]

theorem isPlace_positionAt (hls : f.tokens = .ok ls) {i : Nat} (hi : i ≤ ls.length) :
    IsPlace ls f.body.length (ParseFailure.positionAt ls f.body.length i) i :=
  (isCut_of_scan hls).isPlace hi

/-- Formulas whose tokens are the same, up to the case of names, have the same tree, or faults of
one kind that are told of the same token. A text that is spelled anew, by blank characters between
its lexemes, without blank characters beside the characters of operators or with letters in the
other case, has such tokens, however often this is done. -/
theorem tree_respelled :
    (∀ (f f' : Formula) (ls ls' : List Located), f.tokens = .ok ls → f'.tokens = .ok ls' →
      Agree ls ls' →
        (∃ e, f.tree = .ok e ∧ f'.tree = .ok e) ∨
        ∃ fault fault', f.tree = .error fault ∧ f'.tree = .error fault' ∧
          fault'.kind = fault.kind ∧
          (fault = .tooDeep ∧ fault' = .tooDeep ∨
            ∃ i position position', fault.position? = some position ∧
              fault'.position? = some position' ∧ IsPlace ls f.body.length position i ∧
                IsPlace ls' f'.body.length position' i)) ∧
    ∀ (s s' : String) (ls : List Located), scan s = .ok ls →
      Relation.ReflTransGen IsRespelled s s' → ∃ ls', scan s' = .ok ls' ∧ Agree ls ls' := by
  refine ⟨fun f f' ls ls' hls hls' hagree => ?_,
    fun s s' ls hls h => exists_scan_of_respelled h hls⟩
  have hparse := parse_eq_of_agree hls hls' hagree
  cases hresult : parse maxNesting (ls.map (·.token)) with
  | ok e =>
    exact .inl ⟨e, (tree_eq_ok_iff hls).2 hresult, (tree_eq_ok_iff hls').2 (hparse.trans hresult)⟩
  | error failure =>
    have htree : f.tree = .error (failure.fault ls f.body.length) := by
      simp only [tree, hls, hresult]
    have htree' : f'.tree = .error (failure.fault ls' f'.body.length) := by
      simp only [tree, hls', hparse.trans hresult]
    obtain ⟨hindex, hkind⟩ :=
      failure.kind_fault_eq hagree f.body.length f'.body.length
    refine .inr ⟨_, _, htree, htree', hkind, ?_⟩
    by_cases hdeep : failure.misfit = .tooDeep
    · exact .inl (by simp only [ParseFailure.fault, hdeep, and_self])
    · have hle : failure.index ls ≤ ls.length := Nat.sub_le _ _
      have hle' : failure.index ls' ≤ ls'.length := Nat.sub_le _ _
      refine .inr ⟨failure.index ls, _, _, failure.position?_fault hdeep ls _,
        failure.position?_fault hdeep ls' _, isPlace_positionAt hls hle, ?_⟩
      exact hindex ▸ isPlace_positionAt hls' hle'

/-- The blank character is put on the other side of the operator, and the letter into upper case. -/
theorem tree_respelled_sum :
    Relation.ReflTransGen IsRespelled "a1 +2" "A1+ 2" ∧
      (⟨"=A1+ 2", some "="⟩ : Formula).tree =
        .ok (.binary .add (.cell ⟨0, 0⟩) (.number ⟨false, 2, 0⟩)) := by
  have htokens : scan "a1 +2" =
      .ok [⟨.reference "a1", 0⟩, ⟨.plus, 3⟩, ⟨.number ⟨false, 2, 0⟩, 4⟩] := by cbv
  have htokens' : scan "A1+2" =
      .ok [⟨.reference "A1", 0⟩, ⟨.plus, 2⟩, ⟨.number ⟨false, 2, 0⟩, 3⟩] := by cbv
  have hblank : ∀ c ∈ [' '], Text.isBlank c = true := List.forall_mem_singleton.2 (by cbv)
  have hbetween : IsBetween "A1+2".toList
      [⟨.reference "A1", 0⟩, ⟨.plus, 2⟩, ⟨.number ⟨false, 2, 0⟩, 3⟩] 3 := by
    simp only [IsBetween, List.forall_mem_cons]
    refine ⟨fun w hw => ?_, fun w hw => ?_, fun w _ => .inl (Nat.le_refl 3), List.forall_mem_nil _⟩
    · have hlength : w.length = 2 := by
        rw [← hw.1.toList_eq_of_reference]
        rfl
      exact .inr (by rw [hlength]; decide)
    · have hlength : w.length = 1 := hw.1.isRun
      exact .inr (by rw [hlength])
  have hrespelled : Relation.ReflTransGen IsRespelled "a1 +2" "A1+ 2" := by
    have hstart : "a1 +2".toList = ['a', '1'] ++ [' '] ++ ['+', '2'] := rfl
    have hplace : "A1+2".toList = ['A', '1', '+'] ++ ['2'] := rfl
    have hunspaced : IsRespelled "a1 +2" "a1+2" :=
      .unspaced hstart rfl hblank (.inr ⟨'+', rfl, by decide⟩)
    have hrecased : IsRespelled "a1+2" "A1+2" := .recased (by decide)
    have hspaced : IsRespelled "A1+2" "A1+ 2" := .spaced hplace rfl hblank htokens' hbetween
    exact ((Relation.ReflTransGen.single hunspaced).tail hrecased).tail hspaced
  refine ⟨hrespelled, ?_⟩
  have htree : (⟨"=a1 +2", some "="⟩ : Formula).tree =
      .ok (.binary .add (.cell ⟨0, 0⟩) (.number ⟨false, 2, 0⟩)) := by
    have hcell : IsSum 0 [.reference "a1"] (.cell ⟨0, 0⟩) := .product (.factor (.atom (.cell rfl)))
    have htwo : IsProduct 0 [.number ⟨false, 2, 0⟩] (.number ⟨false, 2, 0⟩) :=
      .factor (.atom .number)
    have hsum := hcell.operator (t := .plus) rfl htwo
    exact (tree_eq_ok_iff (f := ⟨"=a1 +2", some "="⟩) htokens).2
      (parse_eq_ok_iff.2 ⟨_, by decide, hsum⟩)
  obtain ⟨ls', hls', hagree⟩ := tree_respelled.2 _ _ _ htokens hrespelled
  rcases tree_respelled.1 ⟨"=a1 +2", some "="⟩ ⟨"=A1+ 2", some "="⟩ _ ls' htokens hls' hagree with
    ⟨e, he, he'⟩ | ⟨fault, -, hfault, -⟩
  · rw [he', ← he, htree]
  · cases htree.symm.trans hfault

end Formula

end DecimalSheet
