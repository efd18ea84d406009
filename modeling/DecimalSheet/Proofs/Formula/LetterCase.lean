import DecimalSheet.Proofs.Formula.Misplaced

/-!
# Formulas in either letter case

The parser does not look at the case of letters. The names of functions are put into lower case, and
the letters of a column count the same in either case, so tokens whose names are put into lower case
are read as they were before: as the same expression, or with the same misfit at the same place.

## Main definitions

* `Token.lowered`: the token with its name in lower case
* `Lowers read room ts`: names in lower case make no difference for what is read

## Main results

* `Address.addressAt_lowered`: addresses in lower case
* `Expr.parse_map_lowered`: expressions in lower case
-/

namespace DecimalSheet

/-! ## Addresses -/

section Addresses

variable {cs : List Char} {s : String}

theorem Text.isBlank_toLower (c : Char) : isBlank c.toLower = isBlank c :=
  apply_toLower (fun _ h => isBlank_of_isAlphanum (isAlphanum_of_isAlpha h)) c

theorem Text.isAlpha_toLower (c : Char) : c.toLower.isAlpha = c.isAlpha :=
  apply_toLower (f := Char.isAlpha) (fun _ h => h) c

theorem Text.isDigit_toLower (c : Char) : c.toLower.isDigit = c.isDigit := by
  refine apply_toLower (f := Char.isDigit) (b := false) (fun c h => ?_) c
  by_contra hdigit
  rw [isAlpha_of_isDigit (by simpa using hdigit)] at h
  cases h

/-- A character that is no letter has no other case. -/
theorem Text.toLower_eq_self {c : Char} (h : c.isAlpha = false) : c.toLower = c := by
  rcases toLower_cases c with heq | ⟨hc, -⟩
  · exact heq
  · exact absurd (h.symm.trans hc) (by decide)

/-- The text in lower case. -/
def Text.lowered (s : String) : String := String.ofList (s.toList.map Char.toLower)

theorem Text.trim_map_toLower : trim (cs.map Char.toLower) = (trim cs).map Char.toLower := by
  have hblank : isBlank ∘ Char.toLower = isBlank := funext isBlank_toLower
  simp only [trim, trimEnd, List.dropWhile_map, ← List.map_reverse, hblank]

theorem Column.digit_toLower {c : Char} (h : c.isAlpha = true) : digit c.toLower = digit c := by
  have hall : ∀ n : Fin 128, digit (Char.ofNat n).toLower = digit (Char.ofNat n) := by decide
  exact Text.forall_ascii (P := fun c => digit c.toLower = digit c) hall
    (Text.toNat_lt_of_isAlphanum (Text.isAlphanum_of_isAlpha h))

theorem Column.index_map_toLower (h : ∀ c ∈ cs, c.isAlpha = true) :
    index (cs.map Char.toLower) = index cs := by
  rw [index, index, List.foldl_map]
  exact congrArg (· - 1) (List.foldl_ext _ _ 0 fun n c hc => by rw [digit_toLower (h c hc)])

theorem Address.isCoordinate_map_toLower :
    isCoordinate (cs.map Char.toLower) = isCoordinate cs := by
  have halpha : Char.isAlpha ∘ Char.toLower = Char.isAlpha := funext Text.isAlpha_toLower
  have hdigit : Char.isDigit ∘ Char.toLower = Char.isDigit := funext Text.isDigit_toLower
  have hnil : ∀ l : List Char, (l.map Char.toLower != []) = (l != []) := by
    rintro (_ | ⟨c, l⟩) <;> rfl
  simp only [isCoordinate, List.takeWhile_map, List.dropWhile_map, halpha, hnil, List.all_map,
    hdigit]

/-- An address is read from letters in either case. -/
theorem Address.toOption_read_lowered (s : String) :
    (read (Text.lowered s)).toOption = (read s).toOption := by
  unfold read Text.lowered
  rw [String.toList_ofList, Text.trim_map_toLower]
  generalize Text.trim s.toList = cs
  have halpha : Char.isAlpha ∘ Char.toLower = Char.isAlpha := funext Text.isAlpha_toLower
  simp only [isCoordinate_map_toLower, List.takeWhile_map, List.dropWhile_map, halpha,
    List.length_map, Column.index_map_toLower fun c hc => List.mem_takeWhile_imp hc]
  split
  · rfl
  · rename_i hcoordinate
    -- There are no letters among the digits.
    have hdigits : ∀ c ∈ cs.dropWhile Char.isAlpha, c.isDigit = true := by
      rw [Bool.not_eq_true', Bool.not_eq_false, isCoordinate, Bool.and_eq_true] at hcoordinate
      exact List.all_eq_true.1 hcoordinate.2
    have hmap : (cs.dropWhile Char.isAlpha).map Char.toLower = cs.dropWhile Char.isAlpha :=
      (List.map_congr_left fun c hc =>
        Text.toLower_eq_self (Text.isAlpha_of_isDigit (hdigits c hc))).trans (List.map_id _)
    rw [hmap]
    split
    · rfl
    · cases Nat.ofDigitChars 10 (cs.dropWhile Char.isAlpha) 0 <;> rfl

variable {a : Address} {e : AddressError}

theorem Address.read_lowered_of_eq_ok (h : read s = .ok a) : read (Text.lowered s) = .ok a := by
  have hread := toOption_read_lowered s
  rw [h] at hread
  cases h' : read (Text.lowered s) with
  | error e => simp [h', Except.toOption] at hread
  | ok b =>
    rw [h'] at hread
    exact congrArg Except.ok (Option.some.inj hread)

theorem Address.read_lowered_of_eq_error (h : read s = .error e) :
    ∃ e', read (Text.lowered s) = .error e' := by
  have hread := toOption_read_lowered s
  rw [h] at hread
  cases h' : read (Text.lowered s) with
  | error e' => exact ⟨e', rfl⟩
  | ok b => simp [h', Except.toOption] at hread

end Addresses

/-! ## Tokens -/

/-- The token with its name in lower case. -/
def Token.lowered : Token → Token
  | .name text => .name (Text.lowered text)
  | .reference text => .reference (Text.lowered text)
  | t => t

namespace Expr

variable {t : Token} {ts : List Token} {room : Nat}

theorem sumOperator?_lowered : sumOperator? t.lowered = sumOperator? t := by cases t <;> rfl

theorem productOperator?_lowered : productOperator? t.lowered = productOperator? t := by
  cases t <;> rfl

theorem endsRange_lowered : endsRange t.lowered = endsRange t := by cases t <;> rfl

/-- The name of the function that a token calls is in lower case anyhow. -/
theorem functionName?_lowered (h : t.IsScanned) : functionName? t.lowered = functionName? t := by
  have hlower : ∀ text : String, Token.IsName text.toList →
      Text.lower (Text.lowered text) = Text.lower text := by
    intro text htext
    have hname : Token.IsName (Text.lowered text).toList := by
      rw [Text.lowered, String.toList_ofList]
      exact htext.map (by decide) (by decide)
    rw [Text.lower_eq_iff hname.isAscii htext.isAscii, Text.lowered, String.toList_ofList,
      List.map_map]
    exact List.map_congr_left fun c hc => (Text.toLower_ascii (htext.isAscii c hc)).2
  cases t with
  | name text | reference text => exact congrArg some (hlower text h)
  | _ => rfl

theorem head?_map_lowered_eq_iff {u : Token} (hu : ∀ t : Token, t.lowered = u ↔ t = u) :
    (ts.map Token.lowered).head? = some u ↔ ts.head? = some u := by
  rw [List.head?_map, Option.map_eq_some_iff]
  constructor
  · rintro ⟨t, ht, htu⟩
    rw [ht, (hu t).1 htu]
  · intro h
    exact ⟨u, h, (hu u).2 rfl⟩

theorem head?_map_lowered_minus :
    (ts.map Token.lowered).head? = some .minus ↔ ts.head? = some .minus :=
  head?_map_lowered_eq_iff fun t => by cases t <;> simp [Token.lowered]

theorem head?_map_lowered_closing :
    (ts.map Token.lowered).head? = some .closing ↔ ts.head? = some .closing :=
  head?_map_lowered_eq_iff fun t => by cases t <;> simp [Token.lowered]

theorem head?_map_lowered_comma :
    (ts.map Token.lowered).head? = some .comma ↔ ts.head? = some .comma :=
  head?_map_lowered_eq_iff fun t => by cases t <;> simp [Token.lowered]

theorem endsAtom_map_lowered (h : EndsAtom ts) : EndsAtom (ts.map Token.lowered) := by
  intro t ht
  rw [List.head?_map] at ht
  obtain ⟨u, hu, rfl⟩ := Option.map_eq_some_iff.1 ht
  have hends := h u hu
  cases u <;> simp_all [Token.lowered]

theorem beginsAtom_map_lowered : BeginsAtom (ts.map Token.lowered) ↔ BeginsAtom ts := by
  rcases ts with _ | ⟨t, _ | ⟨u, ts⟩⟩
  · rfl
  · cases t <;> rfl
  · cases t <;> cases u <;> rfl

/-! ## What is read -/

section Lowers

variable {α β : Type} {read read' : List Token → Except ParseFailure (α × List Token)}

/-- With names in lower case the same is read, and the tokens that are left are in lower case. -/
def Lowers (read : List Token → Except ParseFailure (α × List Token)) (ts : List Token) : Prop :=
  read (ts.map Token.lowered) = (read ts).map fun p => (p.1, p.2.map Token.lowered)

theorem Lowers.congr (h : Lowers read' ts) (heq : read ts = read' ts)
    (heq' : read (ts.map Token.lowered) = read' (ts.map Token.lowered)) : Lowers read ts := by
  unfold Lowers at h ⊢
  rw [heq, heq', h]

theorem lowers_ok {a : α} : Lowers (fun ts => .ok (a, ts)) ts := rfl

theorem lowers_misfitAt {m : Misfit} : Lowers (α := α) (misfitAt m) ts := by
  simp [Lowers, misfitAt, Except.map]

theorem Lowers.bind (next : α → List Token → Except ParseFailure (β × List Token))
    (h : Lowers read ts) (hnext : ∀ a rest, read ts = .ok (a, rest) → Lowers (next a) rest) :
    Lowers (fun ts => read ts >>= fun p => next p.1 p.2) ts := by
  unfold Lowers at h ⊢
  simp only [h]
  cases hread : read ts with
  | error f => rfl
  | ok p => exact hnext p.1 p.2 hread

theorem Lowers.map {g : α → β} (h : Lowers read ts) :
    Lowers (fun ts => (read ts).map fun p => (g p.1, p.2)) ts := by
  unfold Lowers at h ⊢
  simp only [h]
  cases read ts <;> rfl

/-- Some tokens are passed over. -/
theorem Lowers.after (ws : List Token) (h : Lowers read' ts)
    (heq : read (ws ++ ts) = read' ts)
    (heq' : read ((ws ++ ts).map Token.lowered) = read' (ts.map Token.lowered)) :
    Lowers read (ws ++ ts) := by
  unfold Lowers at h ⊢
  rw [heq, heq', h]

theorem lowers_close {e : Expr} {missing : Expected} : Lowers (close e missing) ts := by
  by_cases h : ts.head? = some .closing
  · obtain ⟨rest, rfl⟩ := List.head?_eq_some_iff.1 h
    rfl
  · exact lowers_misfitAt.congr (close_eq_misfitAt h)
      (close_eq_misfitAt (head?_map_lowered_closing.not.2 h))

/-- A chain of operators goes on as long as operators follow. -/
theorem lowers_chain {operator? : Token → Option Operator} {left : Expr}
    (read : List Token → Except ParseFailure (Expr × List Token))
    (readRest : Expr → List Token → Except ParseFailure (Expr × List Token))
    (hop : ∀ t : Token, operator? t.lowered = operator? t)
    (hnone : ∀ ts, (∀ t ∈ ts.head?, operator? t = none) → readRest left ts = .ok (left, ts))
    (hsome : ∀ t ts op, operator? t = some op → readRest left (t :: ts) =
      read ts >>= fun p => readRest (.binary op left p.1) p.2)
    (hread : ∀ t rest op, ts = t :: rest →
      Lowers (fun ts => read ts >>= fun p => readRest (.binary op left p.1) p.2) rest) :
    Lowers (readRest left) ts := by
  by_cases h : ∃ t ∈ ts.head?, ∃ op, operator? t = some op
  · obtain ⟨t, ht, op, h⟩ := h
    obtain ⟨rest, rfl⟩ := List.head?_eq_some_iff.1 ht
    exact (hread t rest op rfl).after [t] (hsome t rest op h)
      (hsome t.lowered _ op ((hop t).trans h))
  · have hends : ∀ t ∈ ts.head?, operator? t = none := fun t ht =>
      Option.eq_none_iff_forall_ne_some.2 fun op hop => h ⟨t, ht, op, hop⟩
    refine lowers_ok.congr (hnone ts hends) (hnone _ fun t ht => ?_)
    rw [List.head?_map] at ht
    obtain ⟨u, hu, rfl⟩ := Option.map_eq_some_iff.1 ht
    rw [hop, hends u hu]

end Lowers

/-! ## All rules -/

theorem lowers_reference {text : String} (h : EndsAtom ts) :
    Lowers (readAtom room) (.reference text :: ts) := by
  have hread : readAtom room (.reference text :: ts) =
      (addressAt text (.reference text :: ts)).map fun a => (.cell a, ts) := readAtom_reference h
  have hread' : readAtom room ((.reference text :: ts).map Token.lowered) =
      (addressAt (Text.lowered text) ((.reference text :: ts).map Token.lowered)).map fun a =>
        (.cell a, ts.map Token.lowered) := readAtom_reference (endsAtom_map_lowered h)
  unfold Lowers
  rw [hread, hread']
  cases ha : Address.read text with
  | ok a => simp [addressAt, ha, Address.read_lowered_of_eq_ok ha, Except.map]
  | error e =>
    obtain ⟨e', ha'⟩ := Address.read_lowered_of_eq_error ha
    simp [addressAt, ha, ha', misfitAt, Except.map]

theorem any_endsRange_map_lowered :
    (ts.map Token.lowered).head?.any endsRange = ts.head?.any endsRange := by
  rw [List.head?_map]
  cases ts.head? with
  | none => rfl
  | some t => exact endsRange_lowered

/-- What comes of a range depends on its corners and on the token behind it. -/
theorem lowers_secondCorner {first second : String} {start : Address}
    (hfirst : Address.read first = .ok start) :
    Lowers (readArgument room) (.reference first :: .colon :: .reference second :: ts) := by
  have hfirst' := Address.read_lowered_of_eq_ok hfirst
  cases hsecond : Address.read second with
  | error e =>
    obtain ⟨e', hsecond'⟩ := Address.read_lowered_of_eq_error hsecond
    exact lowers_misfitAt.after [.reference first, .colon] (readArgument_badSecond hfirst hsecond)
      (readArgument_badSecond hfirst' hsecond')
  | ok stop =>
    have hsecond' := Address.read_lowered_of_eq_ok hsecond
    by_cases hends : ts.head?.any endsRange = true
    · have hends' := any_endsRange_map_lowered.trans hends
      exact lowers_misfitAt.congr ((readArgument_range hfirst hsecond).trans (if_pos hends))
        ((readArgument_range hfirst' hsecond').trans (if_pos hends'))
    · have hends' : ¬(ts.map Token.lowered).head?.any endsRange = true := by
        rwa [any_endsRange_map_lowered]
      by_cases hclosed : ts.head? = some .comma ∨ ts.head? = some .closing
      · have hclosed' : (ts.map Token.lowered).head? = some .comma ∨
            (ts.map Token.lowered).head? = some .closing := by
          rwa [head?_map_lowered_comma, head?_map_lowered_closing]
        exact lowers_ok.after [.reference first, .colon, .reference second]
          ((readArgument_range hfirst hsecond).trans ((if_neg hends).trans (if_pos hclosed)))
          ((readArgument_range hfirst' hsecond').trans ((if_neg hends').trans (if_pos hclosed')))
      · have hclosed' : ¬((ts.map Token.lowered).head? = some .comma ∨
            (ts.map Token.lowered).head? = some .closing) := by
          rwa [head?_map_lowered_comma, head?_map_lowered_closing]
        exact lowers_misfitAt.after [.reference first, .colon, .reference second]
          ((readArgument_range hfirst hsecond).trans ((if_neg hends).trans (if_neg hclosed)))
          ((readArgument_range hfirst' hsecond').trans ((if_neg hends').trans (if_neg hclosed')))

theorem lowers_range {first : String} :
    Lowers (readArgument room) (.reference first :: .colon :: ts) := by
  cases hfirst : Address.read first with
  | error e =>
    obtain ⟨e', hfirst'⟩ := Address.read_lowered_of_eq_error hfirst
    exact lowers_misfitAt.congr (readArgument_badFirst hfirst) (readArgument_badFirst hfirst')
  | ok start =>
    by_cases href : ∃ second, ts.head? = some (.reference second)
    · obtain ⟨second, hhead⟩ := href
      obtain ⟨rest, rfl⟩ := List.head?_eq_some_iff.1 hhead
      exact lowers_secondCorner hfirst
    · have hnone : ∀ text, ts.head? ≠ some (.reference text) := fun text h => href ⟨text, h⟩
      have hnone' : ∀ text, (ts.map Token.lowered).head? ≠ some (.reference text) := by
        intro text h
        rw [List.head?_map] at h
        obtain ⟨t, ht, hlowered⟩ := Option.map_eq_some_iff.1 h
        cases t <;> cases hlowered
        exact hnone _ ht
      exact lowers_misfitAt.after [.reference first, .colon] (readArgument_noSecond hfirst hnone)
        (readArgument_noSecond (Address.read_lowered_of_eq_ok hfirst) hnone')

/-! ## All rules -/

theorem isScanned_rest {α : Type} {P : Nat → List Token → α → Prop}
    {read : Nat → List Token → Except ParseFailure (α × List Token)} {a : α} {rest : List Token}
    (hts : ∀ t ∈ ts, t.IsScanned) (h : Reads P read room ts)
    (hread : read room ts = .ok (a, rest)) : ∀ t ∈ rest, t.IsScanned := by
  obtain ⟨-, us, -, -, rfl, -⟩ := h.ok a rest hread
  exact fun t ht => hts t (List.mem_append_right us ht)

-- The rules call each other as they do in the parser, and the measure is the same.
mutual

theorem lowers_readSum (room : Nat) (ts : List Token) (hts : ∀ t ∈ ts, t.IsScanned) :
    Lowers (readSum room) ts := by
  have heq : readSum room = fun ts => readProduct room ts >>= fun p => readSumRest room p.1 p.2 :=
    funext fun _ => readSum_eq
  rw [heq]
  refine (lowers_readProduct room ts hts).bind (fun e => readSumRest room e) fun e rest he => ?_
  have hlt : rest.length < ts.length := Parsed.length_lt he
  exact lowers_readSumRest e room rest (isScanned_rest hts (reads_readProduct room ts) he)
termination_by 6 * ts.length + 3
decreasing_by all_goals omega

theorem lowers_readSumRest (left : Expr) (room : Nat) (ts : List Token)
    (hts : ∀ t ∈ ts, t.IsScanned) : Lowers (readSumRest room left) ts :=
  lowers_chain (readProduct room) (readSumRest room) (fun _ => sumOperator?_lowered)
    (fun _ => readSumRest_eq_ok) (fun _ _ _ hop => by simp only [readSumRest_cons, hop])
    fun t rest op heq => by
      have hrest : ∀ t ∈ rest, t.IsScanned := fun u hu => hts u (heq ▸ List.mem_cons_of_mem t hu)
      refine (lowers_readProduct room rest hrest).bind
        (fun e => readSumRest room (.binary op left e)) fun e rest' he => ?_
      have hlt : rest'.length < rest.length := Parsed.length_lt he
      exact lowers_readSumRest _ room rest' (isScanned_rest hrest (reads_readProduct room rest) he)
termination_by 6 * ts.length
decreasing_by all_goals simp only [heq, List.length_cons]; omega

theorem lowers_readProduct (room : Nat) (ts : List Token) (hts : ∀ t ∈ ts, t.IsScanned) :
    Lowers (readProduct room) ts := by
  have heq : readProduct room =
      fun ts => readFactor room ts >>= fun p => readProductRest room p.1 p.2 :=
    funext fun _ => readProduct_eq
  rw [heq]
  refine (lowers_readFactor room ts hts).bind (fun e => readProductRest room e) fun e rest he => ?_
  have hlt : rest.length < ts.length := Parsed.length_lt he
  exact lowers_readProductRest e room rest (isScanned_rest hts (reads_readFactor room ts) he)
termination_by 6 * ts.length + 2
decreasing_by all_goals omega

theorem lowers_readProductRest (left : Expr) (room : Nat) (ts : List Token)
    (hts : ∀ t ∈ ts, t.IsScanned) : Lowers (readProductRest room left) ts :=
  lowers_chain (readFactor room) (readProductRest room) (fun _ => productOperator?_lowered)
    (fun _ => readProductRest_eq_ok) (fun _ _ _ hop => by simp only [readProductRest_cons, hop])
    fun t rest op heq => by
      have hrest : ∀ t ∈ rest, t.IsScanned := fun u hu => hts u (heq ▸ List.mem_cons_of_mem t hu)
      refine (lowers_readFactor room rest hrest).bind
        (fun e => readProductRest room (.binary op left e)) fun e rest' he => ?_
      have hlt : rest'.length < rest.length := Parsed.length_lt he
      exact lowers_readProductRest _ room rest'
        (isScanned_rest hrest (reads_readFactor room rest) he)
termination_by 6 * ts.length
decreasing_by all_goals simp only [heq, List.length_cons]; omega

theorem lowers_readFactor (room : Nat) (ts : List Token) (hts : ∀ t ∈ ts, t.IsScanned) :
    Lowers (readFactor room) ts := by
  by_cases hminus : ts.head? = some .minus
  · obtain ⟨rest, heq⟩ := List.head?_eq_some_iff.1 hminus
    have hlt : rest.length < ts.length := by rw [heq]; exact Nat.lt_succ_self _
    have hrest : ∀ t ∈ rest, t.IsScanned := fun u hu => hts u (heq ▸ List.mem_cons_of_mem _ hu)
    rw [heq]
    by_cases hroom : room < minusCost
    · exact lowers_misfitAt.congr (readFactor_minus.trans (if_pos hroom))
        (readFactor_minus.trans (if_pos hroom))
    · exact (lowers_readFactor (room - minusCost) rest hrest).map.after [.minus]
        (readFactor_minus.trans (if_neg hroom)) (readFactor_minus.trans (if_neg hroom))
  · exact (lowers_readAtom room ts hts).congr (readFactor_eq_readAtom hminus)
      (readFactor_eq_readAtom (head?_map_lowered_minus.not.2 hminus))
termination_by 6 * ts.length + 1
decreasing_by all_goals omega

theorem lowers_readAtom (room : Nat) (ts : List Token) (hts : ∀ t ∈ ts, t.IsScanned) :
    Lowers (readAtom room) ts := by
  obtain ⟨value, us, heq⟩ | ⟨us, heq⟩ | ⟨t, name, us, heq, hname⟩ | ⟨text, us, heq, hus⟩ |
    ⟨text, us, heq⟩ | hbegins := atom_cases ts
  · -- a number
    rw [heq]
    exact lowers_ok.after [.number value] readAtom_number readAtom_number
  · -- a sum in parentheses
    have hlt : us.length < ts.length := by rw [heq]; exact Nat.lt_succ_self _
    have hus : ∀ t ∈ us, t.IsScanned := fun u hu => hts u (heq ▸ List.mem_cons_of_mem _ hu)
    rw [heq]
    by_cases hroom : room < groupCost
    · exact lowers_misfitAt.congr (readAtom_opening.trans (if_pos hroom))
        (readAtom_opening.trans (if_pos hroom))
    · have hbind : Lowers (fun ts => readSum (room - groupCost) ts >>= fun p =>
          close p.1 .closing p.2) us :=
        (lowers_readSum (room - groupCost) us hus).bind (fun e => close e .closing)
          fun _ _ _ => lowers_close
      exact hbind.after [.opening] (readAtom_opening.trans (if_neg hroom))
        (readAtom_opening.trans (if_neg hroom))
  · -- a call, with or without arguments
    have hlt : us.length + 1 < ts.length := by rw [heq]; exact Nat.lt_succ_self _
    have hus : ∀ t ∈ us, t.IsScanned := fun u hu => hts u (by simp [heq, hu])
    have hname' : functionName? t.lowered = some name :=
      (functionName?_lowered (hts t (by simp [heq]))).trans hname
    rw [heq]
    by_cases hroom : room < callCost
    · exact lowers_misfitAt.congr ((readAtom_call hname).trans (if_pos hroom))
        ((readAtom_call hname').trans (if_pos hroom))
    · exact (lowers_readCall name (room - callCost) us hus).after [t, .opening]
        (readAtom_eq_readCall hname (Nat.not_lt.1 hroom))
        (readAtom_eq_readCall hname' (Nat.not_lt.1 hroom))
  · -- a reference
    rw [heq]
    exact lowers_reference hus
  · -- the first corner of a range
    rw [heq]
    exact lowers_misfitAt.congr readAtom_range readAtom_range
  · exact lowers_misfitAt.congr (readAtom_eq_misfitAt hbegins)
      (readAtom_eq_misfitAt (beginsAtom_map_lowered.not.2 hbegins))
termination_by 6 * ts.length
decreasing_by all_goals omega

theorem lowers_readCall (name : String) (room : Nat) (ts : List Token)
    (hts : ∀ t ∈ ts, t.IsScanned) : Lowers (readCall name room) ts := by
  by_cases hclosing : ts.head? = some .closing
  · obtain ⟨rest, rfl⟩ := List.head?_eq_some_iff.1 hclosing
    rfl
  · have hbind : Lowers (fun ts => readArguments room ts >>= fun p =>
        close (.call name p.1) .commaOrClosing p.2) ts :=
      (lowers_readArguments room ts hts).bind (fun es => close (.call name es) .commaOrClosing)
        fun _ _ _ => lowers_close
    exact hbind.congr (if_neg hclosing) (if_neg (head?_map_lowered_closing.not.2 hclosing))
termination_by 6 * ts.length + 6
decreasing_by all_goals omega

theorem lowers_readArguments (room : Nat) (ts : List Token) (hts : ∀ t ∈ ts, t.IsScanned) :
    Lowers (readArguments room) ts := by
  have heq : readArguments room = fun ts => readArgument room ts >>= fun p =>
      readMore p.1 room p.2 :=
    funext fun _ => readArguments_eq
  rw [heq]
  refine (lowers_readArgument room ts hts).bind (fun e => readMore e room) fun e rest he => ?_
  have hlt : rest.length < ts.length := Parsed.length_lt he
  have hrest := isScanned_rest hts (reads_readArgument room ts) he
  by_cases hcomma : rest.head? = some .comma
  · obtain ⟨rest', heq'⟩ := List.head?_eq_some_iff.1 hcomma
    have hlt' : rest'.length < rest.length := by rw [heq']; exact Nat.lt_succ_self _
    have hrest' : ∀ t ∈ rest', t.IsScanned := fun u hu => hrest u (heq' ▸ List.mem_cons_of_mem _ hu)
    rw [heq']
    exact (lowers_readArguments room rest' hrest').map.after [.comma] rfl rfl
  · exact lowers_ok.congr (readMore_eq_ok hcomma)
      (readMore_eq_ok (head?_map_lowered_comma.not.2 hcomma))
termination_by 6 * ts.length + 5
decreasing_by all_goals omega

theorem lowers_readArgument (room : Nat) (ts : List Token) (hts : ∀ t ∈ ts, t.IsScanned) :
    Lowers (readArgument room) ts := by
  by_cases hrange : ∃ first rest, ts = .reference first :: .colon :: rest
  · obtain ⟨first, rest, heq⟩ := hrange
    rw [heq]
    exact lowers_range
  · refine (lowers_readSum room ts hts).congr (readArgument_eq_readSum hrange)
      (readArgument_eq_readSum ?_)
    rintro ⟨first, rest, heq⟩
    -- A range in lower case was a range before.
    rcases ts with _ | ⟨t, _ | ⟨u, ts⟩⟩
    · cases heq
    · simp at heq
    · obtain ⟨ht, heq⟩ := List.cons.inj heq
      obtain ⟨hu, -⟩ := List.cons.inj heq
      cases t <;> simp [Token.lowered] at ht
      cases u <;> simp [Token.lowered] at hu
      exact hrange ⟨_, _, rfl⟩
termination_by 6 * ts.length + 4
decreasing_by all_goals omega

end

theorem lowers_readAll (room : Nat) (ts : List Token) (hts : ∀ t ∈ ts, t.IsScanned) :
    Lowers (readAll room) ts := by
  refine (lowers_readSum room ts hts).bind finish fun e rest _ => ?_
  cases rest with
  | nil => rfl
  | cons t rest => exact lowers_misfitAt

/-- Tokens whose names are put into lower case are read as the same expression, or with the same
misfit at the same place. -/
theorem parse_map_lowered (hts : ∀ t ∈ ts, t.IsScanned) :
    parse room (ts.map Token.lowered) = parse room ts := by
  rw [parse_eq_readAll, parse_eq_readAll, lowers_readAll room ts hts]
  cases readAll room ts <;> rfl

end Expr

end DecimalSheet
