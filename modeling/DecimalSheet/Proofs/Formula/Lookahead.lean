import DecimalSheet.Proofs.Except
import DecimalSheet.Proofs.Formula.Reading

/-!
# The parser looks one token ahead

What a function of the parser reads is a derivation of its rule, and of the tokens behind it only
the first one counts for that. The tokens in front of a misfit are the beginning of a derivation,
and of the tokens behind a misplaced token only the first one counts for it being misplaced.

## Main definitions

* `Misfit.IsMisplaced`: a token is misplaced or is no address
* `Reads P read room ts`: how a function of the parser goes about the tokens `ts`

## Main results

* `Reads.bind`, `Reads.after`, `Reads.map`, `Reads.congr`: functions that are put together
* `reads_readSum`: the parser reads sums with one token of lookahead
-/

namespace DecimalSheet

open DecimalSheet.Expr

/-- The next token is misplaced, or it looks like an address and is none. -/
def Misfit.IsMisplaced : Misfit → Prop
  | .expected _ | .badReference => True
  | .rangeAsOperand | .rangeBeforeOperator _ | .tooDeep => False

/-- The function `read` goes about the tokens `ts` as follows. It reads a derivation of the rule `P`
for which there is room, and would do so with more room and with other tokens behind the next one.
Otherwise, if there is room, the tokens in front of the misfit can be continued to such a
derivation, and a misplaced token is found with more room and with other tokens behind the one after
it, too. -/
structure Reads {α : Type} (P : Nat → List Token → α → Prop)
    (read : Nat → List Token → Except ParseFailure (α × List Token)) (room : Nat)
    (ts : List Token) : Prop where
  ok : ∀ e rest, read room ts = .ok (e, rest) → ∃ n us, n ≤ room ∧ P n us e ∧ ts = us ++ rest ∧
    ∀ room' rest', room ≤ room' → rest'.take 1 = rest.take 1 →
      read room' (us ++ rest') = .ok (e, rest')
  error : ∀ f, read room ts = .error f → f.misfit ≠ .tooDeep →
    ∃ us rest, ts = us ++ rest ∧ rest.length = f.remaining ∧
      (∃ n vs e, n ≤ room ∧ P n (us ++ vs) e) ∧
        (f.misfit.IsMisplaced → ∀ room' rest', room ≤ room' → rest'.take 2 = rest.take 2 →
          read room' (us ++ rest') = .error ⟨f.misfit, rest'.length⟩)

/-- Behind any derivation of the rule `P` with the tree `a`, the tokens make it one of the rule
`Q`. -/
def Continues {α β : Type} (P : Nat → List Token → α → Prop) (Q : Nat → List Token → β → Prop)
    (a : α) (n : Nat) (us : List Token) (b : β) : Prop :=
  ∀ m ws, P m ws a → Q (max m n) (ws ++ us) b

/-- The tokens are a derivation of the rule `P` and a closing parenthesis. -/
def Closed {α : Type} (P : Nat → List Token → α → Prop) (n : Nat) (us : List Token) (a : α) :
    Prop :=
  ∃ ws, us = ws ++ [.closing] ∧ P n ws a

/-- The tokens are the arguments of a call, if there are any. -/
inductive IsCall (name : String) : Nat → List Token → Expr → Prop
  | empty : IsCall name 0 [] (.call name [])
  | arguments {n : Nat} {us : List Token} {es : List Expr} (h : IsArguments n us es) :
    IsCall name n us (.call name es)

theorem take_one_of_take_two {ts ts' : List Token} (h : ts'.take 2 = ts.take 2) :
    ts'.take 1 = ts.take 1 := by
  simpa [List.take_take] using congrArg (List.take 1) h

theorem take_append_congr {n : Nat} {ts ts' : List Token} (us : List Token)
    (h : ts'.take n = ts.take n) : (us ++ ts').take n = (us ++ ts).take n := by
  rw [List.take_append, List.take_append]
  have hle : n - us.length ≤ n := Nat.sub_le _ _
  rw [← Nat.min_eq_left hle, ← List.take_take, ← List.take_take, h]

theorem head?_eq_of_take_one {ts ts' : List Token} (h : ts'.take 1 = ts.take 1) :
    ts'.head? = ts.head? := by
  simpa [List.head?_take] using congrArg List.head? h

namespace Reads

variable {α β : Type} {P Q : Nat → List Token → α → Prop} {room : Nat} {ts : List Token}
  {read : Nat → List Token → Except ParseFailure (α × List Token)}

/-- Some tokens are read whatever comes behind the next one. -/
theorem done {n : Nat} {rest : List Token} {e : α} (us : List Token) (hn : n ≤ room) (hP : P n us e)
    (h : ∀ room' rest', room ≤ room' → rest'.take 1 = rest.take 1 →
      read room' (us ++ rest') = .ok (e, rest')) : Reads P read room (us ++ rest) where
  ok e' rest' hread := by
    rw [h room rest (Nat.le_refl _) rfl] at hread
    obtain ⟨rfl, rfl⟩ := Prod.mk.inj (Except.ok.inj hread)
    exact ⟨n, us, hn, hP, rfl, h⟩
  error f hread := by
    rw [h room rest (Nat.le_refl _) rfl] at hread
    cases hread

/-- There is no room. -/
theorem tooDeep (h : read room ts = misfitAt .tooDeep ts) : Reads P read room ts where
  ok e rest hread := by
    rw [h] at hread
    cases hread
  error f hread hdeep := by
    rw [h] at hread
    obtain rfl := Except.error.inj hread
    exact absurd rfl hdeep

/-- There is a misfit at once. -/
theorem misfit {m : Misfit} (hP : ∃ n vs e, n ≤ room ∧ P n vs e) (h : read room ts = misfitAt m ts)
    (hahead : m.IsMisplaced → ∀ room' ts', room ≤ room' → ts'.take 2 = ts.take 2 →
      read room' ts' = misfitAt m ts') : Reads P read room ts where
  ok e rest hread := by
    rw [h] at hread
    cases hread
  error f hread _ := by
    rw [h] at hread
    obtain rfl := Except.error.inj hread
    exact ⟨[], ts, rfl, rfl, hP, hahead⟩

/-- There is a misplaced token at once. -/
theorem misplaced {m : Misfit} (hP : ∃ n vs e, n ≤ room ∧ P n vs e)
    (h : ∀ room' ts', room ≤ room' → ts'.take 2 = ts.take 2 → read room' ts' = misfitAt m ts') :
    Reads P read room ts :=
  misfit hP (h room ts (Nat.le_refl _) rfl) fun _ => h

/-- The function behaves like another one on tokens that begin alike. -/
theorem congr {read' : Nat → List Token → Except ParseFailure (α × List Token)}
    (hne : ∀ n us e, P n us e → us ≠ [])
    (h : ∀ room' ts', room ≤ room' → ts'.take 2 = ts.take 2 → read room' ts' = read' room' ts')
    (hread' : Reads P read' room ts) : Reads P read room ts where
  ok e rest hread := by
    rw [h room ts (Nat.le_refl _) rfl] at hread
    obtain ⟨n, us, hn, hus, hts, hahead⟩ := hread'.ok e rest hread
    refine ⟨n, us, hn, hus, hts, fun room' rest' hroom hrest => ?_⟩
    -- Something has been read, so the second token is not behind the next one.
    obtain ⟨t, us, rfl⟩ := List.exists_cons_of_ne_nil (hne n us e hus)
    have htake := congrArg (t :: ·) (take_append_congr us hrest)
    rw [h room' _ hroom (hts ▸ htake)]
    exact hahead room' rest' hroom hrest
  error f hread hdeep := by
    rw [h room ts (Nat.le_refl _) rfl] at hread
    obtain ⟨us, rest, hts, hlength, hviable, hahead⟩ := hread'.error f hread hdeep
    refine ⟨us, rest, hts, hlength, hviable, fun hm room' rest' hroom hrest => ?_⟩
    rw [h room' _ hroom (hts ▸ take_append_congr us hrest)]
    exact hahead hm room' rest' hroom hrest

theorem imp (h : ∀ n us e, P n us e → Q n us e) (hread : Reads P read room ts) :
    Reads Q read room ts where
  ok e rest he := by
    obtain ⟨n, us, hn, hus, hahead⟩ := hread.ok e rest he
    exact ⟨n, us, hn, h n us e hus, hahead⟩
  error f hf hdeep := by
    obtain ⟨us, rest, hts, hlength, ⟨n, vs, e, hn, hvs⟩, hahead⟩ := hread.error f hf hdeep
    exact ⟨us, rest, hts, hlength, ⟨n, vs, e, hn, h n _ e hvs⟩, hahead⟩

/-- A part that is read is turned into another tree. -/
theorem map {g : α → β} {S : Nat → List Token → β → Prop} (hread : Reads P read room ts)
    (h : ∀ n us e, P n us e → S n us (g e)) :
    Reads S (fun room ts => (read room ts).map fun p => (g p.1, p.2)) room ts where
  ok e rest he := by
    obtain ⟨⟨x, rest⟩, hx, heq⟩ := exists_of_map_eq_ok he
    obtain ⟨rfl, rfl⟩ := Prod.mk.inj heq
    obtain ⟨n, us, hn, hus, hts, hahead⟩ := hread.ok x rest hx
    refine ⟨n, us, hn, h n us x hus, hts, fun room' rest' hroom hrest => ?_⟩
    simp only [hahead room' rest' hroom hrest]
    rfl
  error f hf hdeep := by
    obtain ⟨us, rest, hts, hlength, ⟨n, vs, e, hn, hvs⟩, hahead⟩ :=
      hread.error f (eq_error_of_map_eq_error hf) hdeep
    refine ⟨us, rest, hts, hlength, ⟨n, vs, g e, hn, h n _ e hvs⟩,
      fun hm room' rest' hroom hrest => ?_⟩
    simp only [hahead hm room' rest' hroom hrest]
    rfl

/-- One part is read after another. Whatever the first part is, something can be the second one. -/
theorem bind {S : Nat → List Token → β → Prop}
    (next : α → Nat → List Token → Except ParseFailure (β × List Token))
    (hread : Reads P read room ts)
    (hnext : ∀ e rest, read room ts = .ok (e, rest) →
      Reads (Continues P S e) (next e) room rest)
    (hend : ∀ e, ∃ n vs x, n ≤ room ∧ Continues P S e n vs x) :
    Reads S (fun room ts => read room ts >>= fun p => next p.1 room p.2) room ts where
  ok x rest hx := by
    obtain ⟨⟨e, mid⟩, he, hx⟩ := exists_of_bind_eq_ok hx
    obtain ⟨m, us, hm, hus, hts, hahead⟩ := hread.ok e mid he
    obtain ⟨n, vs, hn, hvs, hmid, hahead'⟩ := (hnext e mid he).ok x rest hx
    refine ⟨max m n, us ++ vs, Nat.max_le.2 ⟨hm, hn⟩, hvs m us hus, ?_,
      fun room' rest' hroom hrest => ?_⟩
    · rw [hts, hmid, List.append_assoc]
    · have htake := hmid ▸ take_append_congr vs hrest
      simp only [List.append_assoc, hahead room' _ hroom htake]
      exact hahead' room' rest' hroom hrest
  error f hf hdeep := by
    cases he : read room ts with
    | error f' =>
      -- The misfit is in the first part, which something can follow.
      simp only [he] at hf
      obtain rfl := Except.error.inj hf
      obtain ⟨us, rest, hts, hlength, ⟨m, vs, e, hm, hvs⟩, hahead⟩ := hread.error _ he hdeep
      obtain ⟨n, ws, x, hn, hx⟩ := hend e
      refine ⟨us, rest, hts, hlength, ⟨max m n, vs ++ ws, x, Nat.max_le.2 ⟨hm, hn⟩, ?_⟩,
        fun hmisplaced room' rest' hroom hrest => ?_⟩
      · rw [← List.append_assoc]
        exact hx m _ hvs
      · simp only [hahead hmisplaced room' rest' hroom hrest]
        rfl
    | ok p =>
      obtain ⟨e, mid⟩ := p
      simp only [he] at hf
      obtain ⟨m, us, hm, hus, hts, hahead⟩ := hread.ok e mid he
      obtain ⟨vs, rest, hmid, hlength, ⟨n, ws, x, hn, hx⟩, hahead'⟩ :=
        (hnext e mid he).error f hf hdeep
      refine ⟨us ++ vs, rest, by rw [hts, hmid, List.append_assoc], hlength,
        ⟨max m n, ws, x, Nat.max_le.2 ⟨hm, hn⟩, ?_⟩, fun hmisplaced room' rest' hroom hrest => ?_⟩
      · rw [List.append_assoc]
        exact hx m us hus
      · have htake := hmid ▸ take_append_congr vs (take_one_of_take_two hrest)
        simp only [List.append_assoc, hahead room' _ hroom htake]
        exact hahead' hmisplaced room' rest' hroom hrest

/-- Some tokens are passed over, which take up room. -/
theorem after {S : Nat → List Token → α → Prop}
    {read' : Nat → List Token → Except ParseFailure (α × List Token)} (ws : List Token) (cost : Nat)
    (hcost : cost ≤ room) (hread' : Reads P read' (room - cost) ts)
    (heq : ∀ room' ts', room ≤ room' → read room' (ws ++ ts') = read' (room' - cost) ts')
    (h : ∀ n us e, P n us e → S (n + cost) (ws ++ us) e) : Reads S read room (ws ++ ts) where
  ok e rest he := by
    rw [heq room ts (Nat.le_refl _)] at he
    obtain ⟨n, us, hn, hus, hts, hahead⟩ := hread'.ok e rest he
    refine ⟨n + cost, ws ++ us, by omega, h n us e hus, by rw [hts, List.append_assoc],
      fun room' rest' hroom hrest => ?_⟩
    rw [List.append_assoc, heq room' _ hroom]
    exact hahead _ rest' (by omega) hrest
  error f hf hdeep := by
    rw [heq room ts (Nat.le_refl _)] at hf
    obtain ⟨us, rest, hts, hlength, ⟨n, vs, e, hn, hvs⟩, hahead⟩ := hread'.error f hf hdeep
    refine ⟨ws ++ us, rest, by rw [hts, List.append_assoc], hlength,
      ⟨n + cost, vs, e, by omega, ?_⟩, fun hm room' rest' hroom hrest => ?_⟩
    · rw [List.append_assoc]
      exact h n _ e hvs
    · rw [List.append_assoc, heq room' _ hroom]
      exact hahead hm _ rest' (by omega) hrest

end Reads

variable {room : Nat} {ts : List Token}

theorem Continues.of_self {α : Type} {P Q : Nat → List Token → α → Prop} {a : α}
    (h : ∀ n us, P n us a → Q n us a) : Continues P Q a 0 [] a := by
  intro m ws hws
  rw [Nat.max_zero, List.append_nil]
  exact h m ws hws

theorem Closed.ne_nil {α : Type} {P : Nat → List Token → α → Prop} {n : Nat} {us : List Token}
    {a : α} (h : Closed P n us a) : us ≠ [] := by
  obtain ⟨ws, rfl, -⟩ := h
  simp

theorem continues_closing {α β : Type} {P : Nat → List Token → α → Prop}
    {Q : Nat → List Token → β → Prop} {a : α} {b : β} (h : ∀ n us, P n us a → Q n us b) :
    Continues P (Closed Q) a 0 [.closing] b := by
  intro m ws hws
  rw [Nat.max_zero]
  exact ⟨ws, rfl, h m ws hws⟩

theorem close_eq_misfitAt {e : Expr} {missing : Expected} (h : ts.head? ≠ some .closing) :
    close e missing ts = misfitAt (.expected missing) ts := by
  unfold close
  split
  · exact absurd rfl h
  · rfl

theorem reads_close {P : Nat → List Token → Expr → Prop} {e : Expr} {missing : Expected}
    (hP : P 0 [.closing] e) : Reads P (fun _ => close e missing) room ts := by
  by_cases hclosing : ts.head? = some .closing
  · obtain ⟨rest, rfl⟩ := List.head?_eq_some_iff.1 hclosing
    exact .done [.closing] (Nat.zero_le _) hP fun _ _ _ _ => rfl
  · refine .misplaced ⟨0, _, e, Nat.zero_le _, hP⟩ fun _ ts' _ htake => close_eq_misfitAt ?_
    rwa [head?_eq_of_take_one (take_one_of_take_two htake)]

theorem readSumRest_eq_ok {left : Expr} (h : ∀ t ∈ ts.head?, sumOperator? t = none) :
    readSumRest room left ts = .ok (left, ts) := by
  cases ts with
  | nil => exact readSumRest_nil
  | cons t rest => rw [readSumRest_cons, h t rfl]

theorem readProductRest_eq_ok {left : Expr} (h : ∀ t ∈ ts.head?, productOperator? t = none) :
    readProductRest room left ts = .ok (left, ts) := by
  cases ts with
  | nil => exact readProductRest_nil
  | cons t rest => rw [readProductRest_cons, h t rfl]

/-! ## Chains of operators -/

section Chains

variable {operator? : Token → Option Operator} {P S : Nat → List Token → Expr → Prop}
  {read : Nat → List Token → Except ParseFailure (Expr × List Token)} {left : Expr}

/-- An operator and the operand after it become part of what has been read as the left operand. -/
theorem continues_operator {t : Token} {op : Operator} (hop : operator? t = some op)
    (h : ∀ {m n ws us t op left right}, S m ws left → operator? t = some op → P n us right →
      S (max m n) (ws ++ t :: us) (.binary op left right)) {n : Nat} {us : List Token} {e x : Expr}
    (hus : Continues S S (.binary op left e) n us x) :
    Continues P (fun n us x => Continues S S left n (t :: us) x) e n us x := by
  intro m ws hws m' ws' hws'
  have hchain := hus _ _ (h hws' hop hws)
  rwa [Nat.max_assoc, List.append_assoc] at hchain

/-- A chain of operators goes on as long as operators follow. -/
theorem reads_chain
    (readRest : Expr → Nat → List Token → Except ParseFailure (Expr × List Token))
    (h : ∀ {m n ws us t op left right}, S m ws left → operator? t = some op → P n us right →
      S (max m n) (ws ++ t :: us) (.binary op left right))
    (hnone : ∀ room ts, (∀ t ∈ ts.head?, operator? t = none) →
      readRest left room ts = .ok (left, ts))
    (hsome : ∀ room t ts op, operator? t = some op → readRest left room (t :: ts) =
      read room ts >>= fun p => readRest (.binary op left p.1) room p.2)
    (hread : ∀ t rest, ts = t :: rest → Reads P read room rest)
    (hrest : ∀ t rest op e rest', ts = t :: rest → read room rest = .ok (e, rest') →
      Reads (Continues S S (.binary op left e)) (readRest (.binary op left e)) room rest') :
    Reads (Continues S S left) (readRest left) room ts := by
  by_cases hop : ∃ t ∈ ts.head?, ∃ op, operator? t = some op
  · obtain ⟨t, ht, op, hop⟩ := hop
    obtain ⟨rest, rfl⟩ := List.head?_eq_some_iff.1 ht
    have hbind : Reads (fun n us x => Continues S S left n (t :: us) x)
        (fun room ts => read room ts >>= fun p => readRest (.binary op left p.1) room p.2)
        room rest :=
      (hread t rest rfl).bind (fun e => readRest (.binary op left e))
        (fun e rest' he => (hrest t rest op e rest' rfl he).imp fun n us x =>
          continues_operator hop h)
        fun e => ⟨0, [], _, Nat.zero_le _, continues_operator hop h (.of_self fun _ _ hws => hws)⟩
    exact hbind.after [t] 0 (Nat.zero_le _) (fun room' ts' _ => hsome room' t ts' op hop)
      fun _ _ _ hus => hus
  · refine .done [] (Nat.zero_le _) (.of_self fun _ _ h => h) fun room' ts' _ htake => ?_
    refine hnone room' ts' fun t ht => Option.eq_none_iff_forall_ne_some.2 fun op h => ?_
    rw [head?_eq_of_take_one htake] at ht
    exact hop ⟨t, ht, op, h⟩

end Chains

/-! ## Atoms -/

/-- An atom or a range may begin with the tokens. -/
def BeginsAtom : List Token → Prop
  | .number _ :: _ | .opening :: _ | .reference _ :: _ | .name _ :: .opening :: _ => True
  | _ => False

theorem beginsAtom_iff_of_take_two {ts' : List Token} (h : ts'.take 2 = ts.take 2) :
    BeginsAtom ts' ↔ BeginsAtom ts := by
  rcases ts with _ | ⟨t, _ | ⟨u, rest⟩⟩ <;> rcases ts' with _ | ⟨t', _ | ⟨u', rest'⟩⟩ <;>
    simp at h
  · rfl
  · rw [h]
  · rw [h.1, h.2]
    cases t <;> try rfl
    cases u <;> rfl

/-- How an atom may begin, and how not. -/
theorem atom_cases (ts : List Token) :
    (∃ value us, ts = .number value :: us) ∨ (∃ us, ts = .opening :: us) ∨
      (∃ t name us, ts = t :: .opening :: us ∧ functionName? t = some name) ∨
        (∃ text us, ts = .reference text :: us ∧ EndsAtom us) ∨
          (∃ text us, ts = .reference text :: .colon :: us) ∨ ¬BeginsAtom ts := by
  rcases ts with _ | ⟨t, us⟩
  · simp [BeginsAtom]
  · by_cases hopening : us.head? = some .opening
    · obtain ⟨us, rfl⟩ := List.head?_eq_some_iff.1 hopening
      cases t <;> simp [BeginsAtom, functionName?]
    · cases t with
      | number value => exact .inl ⟨value, us, rfl⟩
      | opening => exact .inr (.inl ⟨us, rfl⟩)
      | reference text =>
        by_cases hcolon : us.head? = some .colon
        · obtain ⟨us, rfl⟩ := List.head?_eq_some_iff.1 hcolon
          exact .inr (.inr (.inr (.inr (.inl ⟨text, us, rfl⟩))))
        · exact .inr (.inr (.inr (.inl ⟨text, us, rfl, fun u hu =>
            ⟨fun h => hopening (h ▸ hu), fun h => hcolon (h ▸ hu)⟩⟩)))
      | name text =>
        -- the name of a function without a parenthesis behind it
        refine .inr (.inr (.inr (.inr (.inr fun h => ?_))))
        rcases us with _ | ⟨u, us⟩
        · exact h
        · cases u <;> first | exact h | exact hopening rfl
      | _ => simp [BeginsAtom]

theorem readAtom_range {text : String} :
    readAtom room (.reference text :: .colon :: ts) =
      misfitAt .rangeAsOperand (.reference text :: .colon :: ts) := by
  unfold readAtom
  rw [parseAtom]
  rfl

theorem readAtom_eq_misfitAt (h : ¬BeginsAtom ts) :
    readAtom room ts = misfitAt (.expected .operand) ts := by
  unfold readAtom
  unfold parseAtom
  split
  · simp [BeginsAtom] at h
  · simp [BeginsAtom] at h
  · split
    · rfl
    · rename_i t _ _ _ _ _ _
      cases t <;> simp [BeginsAtom, functionName?] at *
  · simp [BeginsAtom] at h
  · simp [BeginsAtom] at h
  · rfl

theorem reads_reference {text : String} (hts : EndsAtom ts) :
    Reads IsAtom readAtom room (.reference text :: ts) := by
  cases ha : Address.read text with
  | ok a =>
    refine .done [.reference text] (Nat.zero_le _) (.cell ha) fun room' rest' _ hrest => ?_
    have hrest' : EndsAtom rest' := by rwa [EndsAtom, head?_eq_of_take_one hrest]
    rw [List.singleton_append, readAtom_reference hrest', addressAt, ha]
    rfl
  | error e =>
    have hnumber : IsAtom 0 [.number .one] (.number .one) := .number
    refine .misplaced (m := .badReference) ⟨0, _, _, Nat.zero_le _, hnumber⟩ fun _ ts' _ htake => ?_
    -- The two tokens in front are a reference and what may follow an atom.
    rcases ts' with _ | ⟨t, rest'⟩
    · cases htake
    · obtain ⟨rfl, hrest⟩ := List.cons.inj htake
      have hrest' : EndsAtom rest' := by
        rwa [EndsAtom, head?_eq_of_take_one (show rest'.take 1 = ts.take 1 from hrest)]
      rw [readAtom_reference hrest', addressAt, ha]
      rfl

/-! ## Ranges -/

section Ranges

variable {first second : String} {start stop : Address}

theorem readArgument_badFirst {fault : AddressError} (hfirst : Address.read first = .error fault) :
    readArgument room (.reference first :: .colon :: ts) =
      misfitAt .badReference (.reference first :: .colon :: ts) := by
  rw [readArgument_eq]
  simp [parseRange?, addressAt, hfirst, misfitAt, Except.map]

theorem readArgument_noSecond (hfirst : Address.read first = .ok start)
    (h : ∀ text, ts.head? ≠ some (.reference text)) :
    readArgument room (.reference first :: .colon :: ts) = misfitAt (.expected .reference) ts := by
  rw [readArgument_eq]
  unfold parseRange?
  simp only [addressAt, hfirst]
  split
  · exact absurd rfl (h _)
  · rfl

theorem readArgument_badSecond {fault : AddressError} (hfirst : Address.read first = .ok start)
    (hsecond : Address.read second = .error fault) :
    readArgument room (.reference first :: .colon :: .reference second :: ts) =
      misfitAt .badReference (.reference second :: ts) := by
  rw [readArgument_eq]
  simp [parseRange?, addressAt, hfirst, hsecond, misfitAt, Except.map]

/-- What comes of a range depends on the token behind it. -/
theorem readArgument_range (hfirst : Address.read first = .ok start)
    (hsecond : Address.read second = .ok stop) :
    readArgument room (.reference first :: .colon :: .reference second :: ts) =
      if ts.head?.any endsRange then
        misfitAt (.rangeBeforeOperator ⟨start, stop⟩)
          (.reference first :: .colon :: .reference second :: ts)
      else if ts.head? = some .comma ∨ ts.head? = some .closing then
        .ok (.range ⟨start, stop⟩, ts)
      else misfitAt (.expected .commaOrClosing) ts := by
  rw [readArgument_eq]
  unfold parseRange?
  simp only [addressAt, hfirst, hsecond]
  cases ts with
  | nil => rfl
  | cons t ts =>
    simp only [List.head?_cons, Option.any_some, Option.some.injEq]
    split
    · rfl
    · split <;> rfl

/-- The part of a range behind its colon, if the range is not an operand. -/
theorem reads_secondCorner (hfirst : Address.read first = .ok start)
    (hends : ∀ second stop rest, ts = .reference second :: rest → Address.read second = .ok stop →
      rest.head?.any endsRange = false) :
    Reads (fun n us e => IsArgument n (.reference first :: .colon :: us) e)
      (fun room us => readArgument room (.reference first :: .colon :: us)) room ts := by
  by_cases href : ∃ second, ts.head? = some (.reference second)
  · obtain ⟨second, rest, rfl⟩ : ∃ second rest, ts = .reference second :: rest := by
      obtain ⟨second, hsecond⟩ := href
      exact ⟨second, List.head?_eq_some_iff.1 hsecond⟩
    cases hsecond : Address.read second with
    | error =>
      refine .misplaced (m := .badReference) ⟨0, _, _, Nat.zero_le _, .range hfirst hfirst⟩
        fun _ ts' _ htake => ?_
      obtain ⟨rest', rfl⟩ := List.head?_eq_some_iff.1
        (head?_eq_of_take_one (take_one_of_take_two htake))
      exact readArgument_badSecond hfirst hsecond
    | ok stop =>
      suffices hrest : Reads
          (fun n us e => IsArgument n (.reference first :: .colon :: .reference second :: us) e)
          (fun room us => readArgument room (.reference first :: .colon :: .reference second :: us))
          room rest from
        hrest.after [.reference second] 0 (Nat.zero_le _) (fun _ _ _ => rfl) fun _ _ _ h => h
      have hrange := IsArgument.range hfirst hsecond
      have hoperator := hends second stop rest rfl hsecond
      by_cases hclosed : rest.head? = some .comma ∨ rest.head? = some .closing
      · refine .done [] (Nat.zero_le _) hrange fun _ rest' _ hrest => ?_
        rw [← head?_eq_of_take_one hrest] at hclosed hoperator
        exact (readArgument_range hfirst hsecond).trans (by simp [hoperator, hclosed])
      · refine .misplaced (m := .expected .commaOrClosing) ⟨0, [], _, Nat.zero_le _, hrange⟩
          fun _ rest' _ hrest => ?_
        rw [← head?_eq_of_take_one (take_one_of_take_two hrest)] at hclosed hoperator
        exact (readArgument_range hfirst hsecond).trans (by simp [hoperator, hclosed])
  · have hnot : ∀ text, ts.head? ≠ some (.reference text) := fun text h => href ⟨text, h⟩
    refine .misplaced (m := .expected .reference) ⟨0, _, _, Nat.zero_le _, .range hfirst hfirst⟩
      fun _ ts' _ htake => readArgument_noSecond hfirst ?_
    rwa [head?_eq_of_take_one (take_one_of_take_two htake)]

theorem reads_range : Reads IsArgument readArgument room (.reference first :: .colon :: ts) := by
  have hnumber : IsArgument 0 [.number .one] (.number .one) :=
    .sum (.product (.factor (.atom .number)))
  cases hfirst : Address.read first with
  | error =>
    refine .misplaced (m := .badReference) ⟨0, _, _, Nat.zero_le _, hnumber⟩
      fun _ ts' _ htake => ?_
    obtain ⟨rest, rfl⟩ : ∃ rest, ts' = .reference first :: .colon :: rest :=
      ⟨ts'.drop 2, (List.take_append_drop 2 ts').symm.trans (by rw [htake]; rfl)⟩
    exact readArgument_badFirst hfirst
  | ok start =>
    by_cases hends : ∃ second stop rest, ts = .reference second :: rest ∧
        Address.read second = .ok stop ∧ rest.head?.any endsRange = true
    · -- The misfit is at the first corner, because of the token behind the second one.
      obtain ⟨second, stop, rest, rfl, hsecond, hends⟩ := hends
      refine .misfit (m := .rangeBeforeOperator ⟨start, stop⟩)
        ⟨0, _, _, Nat.zero_le _, hnumber⟩ ?_ False.elim
      rw [readArgument_range hfirst hsecond, if_pos hends]
    · refine .after [.reference first, .colon] 0 (Nat.zero_le _)
        (reads_secondCorner hfirst fun second stop rest hts hsecond => ?_) (fun _ _ _ => rfl)
        fun _ _ _ h => h
      exact Bool.eq_false_iff.2 fun hany => hends ⟨second, stop, rest, hts, hsecond, hany⟩

end Ranges

/-! ## All rules -/

/-- The part of a call behind its opening parenthesis. -/
def readCall (name : String) (room : Nat) (ts : List Token) :
    Except ParseFailure (Expr × List Token) :=
  if ts.head? = some .closing then .ok (.call name [], ts.tail)
  else readArguments room ts >>= fun p => close (.call name p.1) .commaOrClosing p.2

theorem readAtom_eq_readCall {t : Token} {name : String} (hname : functionName? t = some name)
    (hroom : callCost ≤ room) :
    readAtom room (t :: .opening :: ts) = readCall name (room - callCost) ts := by
  rw [readAtom_call hname, if_neg (Nat.not_lt.2 hroom), readCall]

/-- The arguments behind the first one. -/
def readMore (e : Expr) (room : Nat) (ts : List Token) :
    Except ParseFailure (List Expr × List Token) :=
  match ts with
  | .comma :: rest => (readArguments room rest).map fun p => (e :: p.1, p.2)
  | rest => .ok ([e], rest)

theorem continues_last (e : Expr) : Continues IsArgument IsArguments e 0 [] [e] := by
  intro m ws hws
  rw [Nat.max_zero, List.append_nil]
  exact .last hws

theorem readMore_eq_ok {e : Expr} (h : ts.head? ≠ some .comma) :
    readMore e room ts = .ok ([e], ts) := by
  unfold readMore
  split
  · exact absurd rfl h
  · rfl

theorem readArgument_eq_readSum (h : ¬∃ first rest, ts = .reference first :: .colon :: rest) :
    readArgument room ts = readSum room ts := by
  rw [readArgument_eq]
  unfold parseRange?
  split
  · rename_i r hr
    split at hr
    · exact absurd ⟨_, _, rfl⟩ h
    · cases hr
  · rfl

-- Each rule calls rules that are further down for the same tokens, or any rule for fewer tokens,
-- and the measure counts both.
mutual

theorem reads_readSum (room : Nat) (ts : List Token) : Reads IsSum readSum room ts := by
  have heq : readSum = fun room ts => readProduct room ts >>= fun p => readSumRest room p.1 p.2 :=
    funext fun _ => funext fun _ => readSum_eq
  rw [heq]
  refine (reads_readProduct room ts).bind (fun e room => readSumRest room e) (fun e rest he => ?_)
    fun e => ⟨0, [], e, Nat.zero_le _, .of_self fun _ _ h => .product h⟩
  have hlt : rest.length < ts.length := Parsed.length_lt he
  exact (reads_readSumRest e room rest).imp fun n us x h m ws hws => h m ws (.product hws)
termination_by 6 * ts.length + 3
decreasing_by all_goals omega

theorem reads_readSumRest (left : Expr) (room : Nat) (ts : List Token) :
    Reads (Continues IsSum IsSum left) (fun room => readSumRest room left) room ts :=
  reads_chain (fun left room => readSumRest room left) .operator
    (fun _ _ => readSumRest_eq_ok) (fun _ _ _ _ hop => by simp only [readSumRest_cons, hop])
    (fun t rest hts => reads_readProduct room rest)
    fun t rest op e rest' hts he =>
      have hlt : rest'.length < rest.length := Parsed.length_lt he
      reads_readSumRest (.binary op left e) room rest'
termination_by 6 * ts.length
decreasing_by all_goals simp only [hts, List.length_cons]; omega

theorem reads_readProduct (room : Nat) (ts : List Token) :
    Reads IsProduct readProduct room ts := by
  have heq : readProduct =
      fun room ts => readFactor room ts >>= fun p => readProductRest room p.1 p.2 :=
    funext fun _ => funext fun _ => readProduct_eq
  rw [heq]
  refine (reads_readFactor room ts).bind (fun e room => readProductRest room e)
    (fun e rest he => ?_) fun e => ⟨0, [], e, Nat.zero_le _, .of_self fun _ _ h => .factor h⟩
  have hlt : rest.length < ts.length := Parsed.length_lt he
  exact (reads_readProductRest e room rest).imp fun n us x h m ws hws => h m ws (.factor hws)
termination_by 6 * ts.length + 2
decreasing_by all_goals omega

theorem reads_readProductRest (left : Expr) (room : Nat) (ts : List Token) :
    Reads (Continues IsProduct IsProduct left) (fun room => readProductRest room left) room ts :=
  reads_chain (fun left room => readProductRest room left) .operator
    (fun _ _ => readProductRest_eq_ok)
    (fun _ _ _ _ hop => by simp only [readProductRest_cons, hop])
    (fun t rest hts => reads_readFactor room rest)
    fun t rest op e rest' hts he =>
      have hlt : rest'.length < rest.length := Parsed.length_lt he
      reads_readProductRest (.binary op left e) room rest'
termination_by 6 * ts.length
decreasing_by all_goals simp only [hts, List.length_cons]; omega

theorem reads_readFactor (room : Nat) (ts : List Token) : Reads IsFactor readFactor room ts := by
  by_cases hminus : ts.head? = some .minus
  · obtain ⟨rest, hts⟩ := List.head?_eq_some_iff.1 hminus
    have hlt : rest.length < ts.length := by rw [hts]; exact Nat.lt_succ_self _
    rw [hts]
    by_cases hroom : room < minusCost
    · exact .tooDeep (by rw [readFactor_minus, if_pos hroom])
    · have hmap := (reads_readFactor (room - minusCost) rest).map (g := Expr.negate)
        (S := fun n us e => IsFactor (n + minusCost) (.minus :: us) e) fun _ _ _ => .negate
      refine hmap.after [.minus] minusCost (Nat.not_lt.1 hroom) (fun room' ts' hle => ?_)
        fun _ _ _ h => h
      rw [List.singleton_append, readFactor_minus, if_neg (by omega)]
  · refine .congr (fun n us e h => ?_) (fun room' ts' _ htake => readFactor_eq_readAtom ?_)
      ((reads_readAtom room ts).imp fun _ _ _ => .atom)
    · obtain ⟨t, us, rfl, -⟩ := h.exists_cons
      exact List.cons_ne_nil t us
    · rwa [head?_eq_of_take_one (take_one_of_take_two htake)]
termination_by 6 * ts.length + 1
decreasing_by all_goals omega

theorem reads_readAtom (room : Nat) (ts : List Token) : Reads IsAtom readAtom room ts := by
  have hnumber : IsAtom 0 [.number .one] (.number .one) := .number
  obtain ⟨value, us, hts⟩ | ⟨us, hts⟩ | ⟨t, name, us, hts, hname⟩ | ⟨text, us, hts, hus⟩ |
    ⟨text, us, hts⟩ | hbegins := atom_cases ts
  · -- a number
    rw [hts]
    exact .done [.number value] (Nat.zero_le _) .number fun _ _ _ _ => readAtom_number
  · -- a sum in parentheses
    have hlt : us.length < ts.length := by rw [hts]; exact Nat.lt_succ_self _
    rw [hts]
    by_cases hroom : room < groupCost
    · exact .tooDeep (by rw [readAtom_opening, if_pos hroom])
    · have hbind : Reads (Closed IsSum)
          (fun room ts => readSum room ts >>= fun p => close p.1 .closing p.2)
          (room - groupCost) us :=
        (reads_readSum (room - groupCost) us).bind (fun e _ => close e .closing)
          (fun e rest _ => reads_close (continues_closing fun _ _ h => h))
          fun e => ⟨0, _, e, Nat.zero_le _, continues_closing fun _ _ h => h⟩
      refine hbind.after [.opening] groupCost (Nat.not_lt.1 hroom) (fun room' ts' hle => ?_) ?_
      · rw [List.singleton_append, readAtom_opening, if_neg (by omega)]
      · rintro n _ e ⟨ws, rfl, hws⟩
        exact .group hws
  · -- a call, with or without arguments
    have hlt : us.length + 1 < ts.length := by rw [hts]; exact Nat.lt_succ_self _
    rw [hts]
    by_cases hroom : room < callCost
    · exact .tooDeep (by rw [readAtom_call hname, if_pos hroom])
    · refine (reads_readCall name (room - callCost) us).after [t, .opening] callCost
        (Nat.not_lt.1 hroom) (fun room' ts' hle => readAtom_eq_readCall hname (by omega)) ?_
      rintro n _ e ⟨ws, rfl, hws⟩
      cases hws with
      | empty => exact .emptyCall hname
      | arguments hargs => exact .call hname hargs
  · -- a reference
    rw [hts]
    exact reads_reference hus
  · -- the first corner of a range
    rw [hts]
    exact .misfit ⟨0, _, _, Nat.zero_le _, hnumber⟩ readAtom_range False.elim
  · refine .misplaced (m := .expected .operand) ⟨0, _, _, Nat.zero_le _, hnumber⟩
      fun room' ts' _ htake => readAtom_eq_misfitAt ?_
    rwa [beginsAtom_iff_of_take_two htake]
termination_by 6 * ts.length
decreasing_by all_goals omega

theorem reads_readCall (name : String) (room : Nat) (ts : List Token) :
    Reads (Closed (IsCall name)) (readCall name) room ts := by
  by_cases hclosing : ts.head? = some .closing
  · obtain ⟨rest, rfl⟩ := List.head?_eq_some_iff.1 hclosing
    exact .done [.closing] (Nat.zero_le _) ⟨[], rfl, .empty⟩ fun _ _ _ _ => rfl
  · have hbind : Reads (Closed (IsCall name))
        (fun room ts => readArguments room ts >>= fun p =>
          close (.call name p.1) .commaOrClosing p.2) room ts :=
      (reads_readArguments room ts).bind (fun es _ => close (.call name es) .commaOrClosing)
        (fun es rest _ => reads_close (continues_closing fun _ _ => .arguments))
        fun es => ⟨0, _, _, Nat.zero_le _, continues_closing fun _ _ => .arguments⟩
    refine .congr (fun _ _ _ h => h.ne_nil) (fun room' ts' _ htake => ?_) hbind
    rw [readCall, if_neg]
    rwa [head?_eq_of_take_one (take_one_of_take_two htake)]
termination_by 6 * ts.length + 6
decreasing_by all_goals omega

theorem reads_readArguments (room : Nat) (ts : List Token) :
    Reads IsArguments readArguments room ts := by
  have heq : readArguments = fun room ts => readArgument room ts >>= fun p =>
      readMore p.1 room p.2 :=
    funext fun _ => funext fun _ => readArguments_eq
  rw [heq]
  refine (reads_readArgument room ts).bind readMore (fun e rest he => ?_)
    fun e => ⟨0, [], [e], Nat.zero_le _, continues_last e⟩
  have hlt : rest.length < ts.length := Parsed.length_lt he
  by_cases hcomma : rest.head? = some .comma
  · obtain ⟨rest', hrest⟩ := List.head?_eq_some_iff.1 hcomma
    have hlt' : rest'.length < rest.length := by rw [hrest]; exact Nat.lt_succ_self _
    have hmap := (reads_readArguments room rest').map (g := fun es => e :: es)
      (S := fun n us es => Continues IsArgument IsArguments e n (.comma :: us) es)
      fun _ _ _ h _ _ hws => .more hws h
    rw [hrest]
    exact hmap.after [.comma] 0 (Nat.zero_le _) (fun _ _ _ => rfl) fun _ _ _ h => h
  · refine .done [] (Nat.zero_le _) (continues_last e) fun room' ts' _ htake => ?_
    rw [← head?_eq_of_take_one htake] at hcomma
    exact readMore_eq_ok hcomma
termination_by 6 * ts.length + 5
decreasing_by all_goals omega

theorem reads_readArgument (room : Nat) (ts : List Token) :
    Reads IsArgument readArgument room ts := by
  by_cases hrange : ∃ first rest, ts = .reference first :: .colon :: rest
  · obtain ⟨first, rest, hts⟩ := hrange
    rw [hts]
    exact reads_range
  · refine .congr (fun n us e h => ?_) (fun room' ts' _ htake => ?_)
      ((reads_readSum room ts).imp fun _ _ _ => .sum)
    · obtain ⟨t, us, rfl, -⟩ := h.exists_cons
      exact List.cons_ne_nil t us
    · refine readArgument_eq_readSum ?_
      rintro ⟨first, rest, rfl⟩
      refine hrange ⟨first, ts.drop 2, ?_⟩
      exact (List.take_append_drop 2 ts).symm.trans (by rw [← htake]; rfl)
termination_by 6 * ts.length + 4
decreasing_by all_goals omega

end

end DecimalSheet
