import DecimalSheet.Proofs.Formula.RoundTrip

/-!
# Grouping parentheses

A parenthesis behind the name of a function opens the arguments of a call, and any other opening
parenthesis groups. Two lists of tokens may differ in the letter case of names, in the spelling of
addresses and in pairs of parentheses that group. Numbers are their own values here, so their
spelling is left behind with the text.

## Main definitions

* `Token.Respells t u`: the tokens differ at most in letter case and in the spelling of an address
* `IsBalanced ts`: each parenthesis has its counterpart
* `Ungroups ts us`: a pair of parentheses that groups is removed
* `Simplifies ts us`: tokens are spelled anew, and pairs that group are removed
* `groupings called ts`: the number of opening parentheses that group

## Main results

* `Simplifies.enclose`, `Simplifies.around`: simplifying in the middle of other tokens
* `Simplifies.groupings_le`, `Simplifies.count_opening_le`: no parentheses are added
* `Token.count_opening`: the opening parentheses of a text
-/

namespace DecimalSheet

open DecimalSheet.Expr

/-! ## Spelling -/

/-- The tokens are the same, up to the letter case of a name and the spelling of an address. -/
inductive Token.Respells : Token → Token → Prop
  | refl (t : Token) : Respells t t
  | name {s s' : String} (h : Text.lower s = Text.lower s') : Respells (.name s) (.name s')
  | reference {s s' : String} (h : Text.lower s = Text.lower s') :
    Respells (.reference s) (.reference s')
  | address {s s' : String} {a : Address} (h : Address.read s = .ok a)
    (h' : Address.read s' = .ok a) : Respells (.reference s) (.reference s')

/-- Letters and digits are told apart in any letter case. -/
theorem Address.hasForm_map {f : Char → Char} {cs : List Char}
    (halpha : ∀ c ∈ cs, (f c).isAlpha = c.isAlpha) (hdigit : ∀ c ∈ cs, (f c).isDigit = c.isDigit) :
    HasForm (cs.map f) ↔ HasForm cs := by
  constructor
  · rintro ⟨letters, digits, hcs, ⟨hletters, hall⟩, hdigits, hall'⟩
    obtain ⟨ls, ds, rfl, rfl, rfl⟩ := List.map_eq_append_iff.1 hcs
    refine ⟨ls, ds, rfl, ⟨by simpa using hletters, fun c hc => ?_⟩, by simpa using hdigits,
      fun c hc => ?_⟩
    · rw [← halpha c (List.mem_append_left ds hc)]
      exact hall _ (List.mem_map_of_mem hc)
    · rw [← hdigit c (List.mem_append_right ls hc)]
      exact hall' _ (List.mem_map_of_mem hc)
  · rintro ⟨ls, ds, rfl, ⟨hletters, hall⟩, hdigits, hall'⟩
    refine ⟨ls.map f, ds.map f, List.map_append, ⟨by simpa using hletters, ?_⟩,
      by simpa using hdigits, ?_⟩
    · exact List.forall_mem_map.2 fun c hc =>
        (halpha c (List.mem_append_left ds hc)).trans (hall c hc)
    · exact List.forall_mem_map.2 fun c hc =>
        (hdigit c (List.mem_append_right ls hc)).trans (hall' c hc)

theorem hasForm_upper_lower {s : String} (h : Text.IsAscii s.toList) :
    Address.HasForm (Text.upper (Text.lower s)).toList ↔ Address.HasForm s.toList := by
  have hcase : ∀ n : Fin 128,
      (Char.ofNat n).toLower.toUpper.isAlpha = (Char.ofNat n).isAlpha ∧
        (Char.ofNat n).toLower.toUpper.isDigit = (Char.ofNat n).isDigit := by decide
  have hall : ∀ c ∈ s.toList, c.toLower.toUpper.isAlpha = c.isAlpha ∧
      c.toLower.toUpper.isDigit = c.isDigit := fun c hc =>
    Text.forall_ascii (P := fun c => c.toLower.toUpper.isAlpha = c.isAlpha ∧
      c.toLower.toUpper.isDigit = c.isDigit) hcase (h c hc)
  rw [Text.toList_upper h.lower, Text.toList_lower h, List.map_map]
  exact Address.hasForm_map (fun c hc => (hall c hc).1) fun c hc => (hall c hc).2

/-- The name of a function is written in upper case, and read in lower case. -/
theorem Token.respells_of_functionName? {t : Token} {w : List Char} {name : String}
    (ht : t.IsLexeme w) (h : functionName? t = some name) :
    t.Respells (Token.ofName (Text.upper name).toList) := by
  have hlower : ∀ {s : String}, Text.IsAscii s.toList →
      Text.lower s = Text.lower (Text.upper (Text.lower s)) := fun hs => by
    rw [Text.lower_upper hs.lower, Text.lower_lower]
  cases ht with
  | name hname hform =>
    obtain rfl := Option.some.inj h
    have hascii : Text.IsAscii (String.ofList w).toList := by
      rw [String.toList_ofList]
      exact hname.isAscii
    have hform' := mt (hasForm_upper_lower hascii).1 (by rwa [String.toList_ofList])
    rw [Token.ofName_of_not_hasForm hform', String.ofList_toList]
    exact .name (hlower hascii)
  | reference hform =>
    obtain rfl := Option.some.inj h
    have hascii : Text.IsAscii (String.ofList w).toList := by
      rw [String.toList_ofList]
      exact (Token.isName_of_hasForm hform).isAscii
    have hform' := (hasForm_upper_lower hascii).2 (by rwa [String.toList_ofList])
    rw [Token.ofName_of_hasForm hform', String.ofList_toList]
    exact .reference (hlower hascii)
  | number => cases h
  | symbol hchar =>
    unfold Token.ofChar? at hchar
    split at hchar <;> cases hchar <;> cases h

/-! ## Parentheses -/

/-- Each parenthesis has its counterpart. -/
inductive IsBalanced : List Token → Prop
  | nil : IsBalanced []
  | cons {t : Token} {ts : List Token} (hopening : t ≠ .opening) (hclosing : t ≠ .closing)
    (h : IsBalanced ts) : IsBalanced (t :: ts)
  | group {ts us : List Token} (h : IsBalanced ts) (h' : IsBalanced us) :
    IsBalanced (.opening :: ts ++ .closing :: us)

/-- The tokens do not end in the name of a function, so a parenthesis behind them groups. -/
def EndsFree (ts : List Token) : Prop := ∀ t ∈ ts.getLast?, functionName? t = none

/-- A pair of parentheses that groups is removed. -/
inductive Ungroups : List Token → List Token → Prop
  | intro {before inner : List Token} (after : List Token) (hbefore : EndsFree before)
    (hinner : IsBalanced inner) :
    Ungroups (before ++ .opening :: inner ++ .closing :: after) (before ++ inner ++ after)

/-- Tokens are spelled anew, and pairs of parentheses that group are removed. -/
def Simplifies (ts us : List Token) : Prop :=
  ∃ vs, List.Forall₂ Token.Respells ts vs ∧ Relation.ReflTransGen Ungroups vs us

variable {ts us vs ws : List Token} {t u : Token}

theorem IsBalanced.append (h : IsBalanced ts) (h' : IsBalanced us) : IsBalanced (ts ++ us) := by
  induction h with
  | nil => exact h'
  | cons hopening hclosing _ ih => exact .cons hopening hclosing ih
  | group h _ _ ih =>
    rw [List.append_assoc, List.cons_append]
    exact .group h ih

theorem IsBalanced.parenthesized (h : IsBalanced ts) :
    IsBalanced (.opening :: ts ++ [.closing]) := .group h .nil

theorem endsFree_nil : EndsFree [] := by rintro t ⟨⟩

theorem endsFree_concat (ts : List Token) (ht : functionName? t = none) :
    EndsFree (ts ++ [t]) := by
  rintro u hu
  rw [List.getLast?_concat] at hu
  exact Option.some.inj hu ▸ ht

theorem EndsFree.append (h : EndsFree ts) (h' : EndsFree us) : EndsFree (ts ++ us) := by
  intro t ht
  rw [List.getLast?_append] at ht
  cases hus : us.getLast? with
  | none =>
    rw [hus] at ht
    exact h t ht
  | some u =>
    rw [hus] at ht
    exact h' t (hus ▸ ht)

/-- A pair of parentheses is removed in the middle of other tokens. -/
theorem Ungroups.enclose (h : Ungroups ts us) (hvs : EndsFree vs) (ws : List Token) :
    Ungroups (vs ++ ts ++ ws) (vs ++ us ++ ws) := by
  obtain ⟨after, hbefore, hinner⟩ := h
  simpa using Ungroups.intro (after ++ ws) (hvs.append hbefore) hinner

theorem ungroups_parenthesized (h : IsBalanced ts) :
    Ungroups (.opening :: ts ++ [.closing]) ts := by
  simpa using Ungroups.intro [] endsFree_nil h

namespace Simplifies

theorem refl (ts : List Token) : Simplifies ts ts :=
  ⟨ts, List.forall₂_same.2 fun t _ => .refl t, .refl⟩

theorem ungroup (h : Simplifies ts us) (h' : Relation.ReflTransGen Ungroups us vs) :
    Simplifies ts vs := by
  obtain ⟨ws, hws, hus⟩ := h
  exact ⟨ws, hws, hus.trans h'⟩

/-- Tokens are simplified in the middle of others. -/
theorem enclose {vs' : List Token} (h : Simplifies ts us)
    (hvs : List.Forall₂ Token.Respells vs vs') (hfree : EndsFree vs') (ws : List Token) :
    Simplifies (vs ++ ts ++ ws) (vs' ++ us ++ ws) := by
  obtain ⟨xs, hxs, hus⟩ := h
  have hws : List.Forall₂ Token.Respells ws ws := List.forall₂_same.2 fun t _ => .refl t
  exact ⟨vs' ++ xs ++ ws, List.rel_append (List.rel_append hvs hxs) hws,
    hus.lift (fun x => vs' ++ x ++ ws) fun _ _ h => h.enclose hfree ws⟩

/-- Both sides of a token that is not the name of a function are simplified. -/
theorem around (h : Simplifies ts us) (ht : functionName? t = none) (h' : Simplifies vs ws) :
    Simplifies (ts ++ t :: vs) (us ++ t :: ws) := by
  obtain ⟨xs, hxs, hus⟩ := h
  obtain ⟨ys, hys, hws⟩ := h'
  refine ⟨xs ++ t :: ys, List.rel_append hxs (.cons (.refl t) hys), ?_⟩
  -- the right side first, behind the tokens on the left and the one in the middle
  have hright : Relation.ReflTransGen Ungroups (xs ++ t :: ys) (xs ++ t :: ws) := by
    have hlift := hws.lift (fun y => (xs ++ [t]) ++ y ++ []) fun _ _ h =>
      h.enclose (endsFree_concat xs ht) []
    simpa using hlift
  have hleft : Relation.ReflTransGen Ungroups (xs ++ t :: ws) (us ++ t :: ws) :=
    hus.lift (· ++ t :: ws) fun _ _ h => h.enclose endsFree_nil (t :: ws)
  exact hright.trans hleft

end Simplifies

/-! ## Counting -/

/-- The number of opening parentheses that group, where `called` tells whether the name of a
function stands in front of the tokens. -/
def groupings (called : Bool) : List Token → Nat
  | [] => 0
  | t :: ts =>
    (if t = .opening ∧ called = false then 1 else 0) + groupings (functionName? t).isSome ts

theorem groupings_le (called : Bool) (ts : List Token) :
    groupings called ts ≤ groupings false ts := by
  cases ts with
  | nil => exact Nat.le_refl _
  | cons t ts =>
    simp only [groupings]
    split <;> simp_all

/-- What stands behind some tokens cannot group less if no name stands in front of it. -/
theorem groupings_append_le (called : Bool) (ts us : List Token) :
    groupings called (ts ++ us) ≤ groupings called ts + groupings false us := by
  induction ts generalizing called with
  | nil => simpa [groupings] using groupings_le called us
  | cons t ts ih =>
    have hle := ih (functionName? t).isSome
    simp only [List.cons_append, groupings]
    omega

theorem groupings_append_closing (called : Bool) (ts us : List Token) :
    groupings called (ts ++ .closing :: us) = groupings called ts + groupings false us := by
  induction ts generalizing called with
  | nil => simp [groupings, functionName?]
  | cons t ts ih => simp only [List.cons_append, groupings, ih, Nat.add_assoc]

/-- A parenthesis that is removed with its counterpart is one of those that group. -/
theorem groupings_ungrouped_lt {before : List Token} (called : Bool) (hbefore : EndsFree before)
    (hcalled : before = [] → called = false) (inner after : List Token) :
    groupings called (before ++ inner ++ after) <
      groupings called (before ++ .opening :: inner ++ .closing :: after) := by
  induction before generalizing called with
  | nil =>
    have hle := groupings_append_le false inner after
    simp only [hcalled rfl, List.nil_append, List.cons_append, groupings, true_and, if_true,
      groupings_append_closing, functionName?, Option.isSome_none]
    omega
  | cons t before ih =>
    have hrest : EndsFree before := fun u hu => hbefore u (List.mem_getLast?_cons hu)
    have hlt := ih (functionName? t).isSome hrest fun hnil => by
      subst hnil
      rw [hbefore t rfl]
      rfl
    simp only [List.cons_append, groupings]
    omega

theorem Ungroups.groupings_lt (h : Ungroups ts us) : groupings false us < groupings false ts := by
  obtain ⟨after, hbefore, -⟩ := h
  exact groupings_ungrouped_lt false hbefore (fun _ => rfl) _ after

theorem Ungroups.count_opening_lt (h : Ungroups ts us) :
    us.count .opening < ts.count .opening := by
  obtain ⟨after, -, -⟩ := h
  simp only [List.count_append, List.count_cons]
  simp

theorem Token.Respells.functionName?_isSome (h : Respells t u) :
    (functionName? u).isSome = (functionName? t).isSome := by
  cases h <;> rfl

theorem Token.Respells.opening_iff (h : Respells t u) : u = .opening ↔ t = .opening := by
  cases h <;> simp

namespace Simplifies

theorem groupings_respelled (h : List.Forall₂ Token.Respells ts us) (called : Bool) :
    groupings called us = groupings called ts := by
  induction h generalizing called with
  | nil => rfl
  | cons ht _ ih => simp only [groupings, ht.opening_iff, ht.functionName?_isSome, ih]

theorem count_opening_respelled (h : List.Forall₂ Token.Respells ts us) :
    us.count .opening = ts.count .opening := by
  induction h with
  | nil => rfl
  | cons ht _ ih => simp only [List.count_cons, beq_iff_eq, ht.opening_iff, ih]

/-- No more parentheses group than before. -/
theorem groupings_le (h : Simplifies ts us) : groupings false us ≤ groupings false ts := by
  obtain ⟨vs, hvs, hus⟩ := h
  rw [← groupings_respelled hvs]
  induction hus with
  | refl => exact Nat.le_refl _
  | tail _ hstep ih => exact Nat.le_trans (Nat.le_of_lt hstep.groupings_lt) ih

/-- There are no more opening parentheses than before. -/
theorem count_opening_le (h : Simplifies ts us) : us.count .opening ≤ ts.count .opening := by
  obtain ⟨vs, hvs, hus⟩ := h
  rw [← count_opening_respelled hvs]
  induction hus with
  | refl => exact Nat.le_refl _
  | tail _ hstep ih => exact Nat.le_trans (Nat.le_of_lt hstep.count_opening_lt) ih

end Simplifies

/-! ## Parentheses of texts -/

namespace Token

theorem IsLexeme.count_opening {w : List Char} (h : t.IsLexeme w) :
    w.count '(' = if t == .opening then 1 else 0 := by
  have hnone : ∀ {w : List Char}, (∀ c ∈ w, isNameRest c = true) → w.count '(' = 0 :=
    fun hw => List.count_eq_zero.2 fun hmem => absurd (hw _ hmem) (by decide)
  cases h with
  | number _ hw => exact hnone fun c hc => isNameRest_of_isNumeric (hw c hc)
  | name h => exact hnone h.2
  | reference h => exact hnone (isName_of_hasForm h).2
  | symbol h =>
    unfold ofChar? at h
    split at h <;> cases h <;> decide

theorem Cuts.count_opening {rest cs : List Char} {position : Nat} {ls : List Located}
    (h : Cuts rest position cs ls) : cs.count '(' = (ls.map (·.token)).count .opening := by
  induction h with
  | nil => rfl
  | blank hc _ ih =>
    rw [List.count_cons_of_ne (by rintro rfl; cases hc), ih]
  | lexeme hw _ _ ih =>
    rw [List.count_append, hw.count_opening, ih, List.map_cons, List.count_cons, Nat.add_comm]

/-- Each opening parenthesis of a text is a token. -/
theorem count_opening {s : String} {ls : List Located} (h : scan s = .ok ls) :
    s.toList.count '(' = (ls.map (·.token)).count .opening := (cuts_of_scan h).count_opening

end Token

end DecimalSheet
