import DecimalSheet.Proofs.Formula.Lexemes
import DecimalSheet.Proofs.Formula.Parsing

/-!
# The places of faults

A fault of the grammar is told of one token, or of the end of the formula. The tokens in front of it
can be continued to an expression, and if the fault is a misplaced token, no expression begins with
the tokens up to the one behind it. So the fault is not found too early, and at most one token too
late.

## Main definitions

* `IsViable us`: the tokens can be continued to those of an expression
* `IsPlace ts stop position i`: the position is that behind `i` tokens and no others

## Main results

* `reads_readAll`: the parser reads whole expressions with one token of lookahead
* `parse_error`: a misfit in a list of tokens
* `Formula.place_of_tree`: the place of a fault in a formula
-/

namespace DecimalSheet

open DecimalSheet.Expr

variable {room : Nat} {ts : List Token}

/-! ## Misfits -/

/-- The tokens can be continued to those of an expression. -/
def IsViable (us : List Token) : Prop := ∃ vs e, parse maxNesting (us ++ vs) = .ok e

/-- The end behind an expression. -/
def finish (e : Expr) (ts : List Token) : Except ParseFailure (Expr × List Token) :=
  match ts with
  | [] => .ok (e, [])
  | rest => misfitAt (.expected .operatorOrEnd) rest

/-- A sum and the end behind it. -/
def readAll (room : Nat) (ts : List Token) : Except ParseFailure (Expr × List Token) :=
  readSum room ts >>= fun p => finish p.1 p.2

theorem parse_eq_readAll : parse room ts = (readAll room ts).map Prod.fst := by
  rw [parse_eq, readAll]
  rcases readSum room ts with _ | ⟨e, _ | ⟨t, rest⟩⟩ <;> rfl

theorem reads_finish (e : Expr) :
    Reads (Continues IsSum IsSum e) (fun _ => finish e) room ts := by
  have hend : Continues IsSum IsSum e 0 [] e := .of_self fun _ _ h => h
  cases ts with
  | nil =>
    refine .done [] (Nat.zero_le _) hend fun _ rest' _ hrest => ?_
    obtain rfl : rest' = [] := by simpa using hrest
    rfl
  | cons t rest =>
    refine .misplaced (m := .expected .operatorOrEnd) ⟨0, [], e, Nat.zero_le _, hend⟩
      fun _ ts' _ htake => ?_
    obtain ⟨rest', rfl⟩ := List.head?_eq_some_iff.1
      (head?_eq_of_take_one (take_one_of_take_two htake))
    rfl

/-- The parser reads whole expressions with one token of lookahead. -/
theorem reads_readAll (room : Nat) (ts : List Token) : Reads IsSum readAll room ts :=
  (reads_readSum room ts).bind (fun e _ => finish e) (fun e _ _ => reads_finish e)
    fun e => ⟨0, [], e, Nat.zero_le _, .of_self fun _ _ h => h⟩

theorem exists_append_of_take {n : Nat} {us rest us' : List Token}
    (h : us'.take (us.length + n) = (us ++ rest).take (us.length + n)) :
    ∃ rest', us' = us ++ rest' ∧ rest'.take n = rest.take n := by
  rw [List.take_length_add_append] at h
  refine ⟨us'.drop us.length, ?_, ?_⟩
  · have hus : us'.take us.length = us := by
      have htake := congrArg (List.take us.length) h
      simpa [List.take_take] using htake
    exact (hus ▸ List.take_append_drop us.length us').symm
  · have hdrop := congrArg (List.drop us.length) h
    rwa [List.drop_take, List.drop_left, Nat.add_sub_cancel_left] at hdrop

/-- The tokens in front of a misfit can be continued to those of an expression. No expression, with
whatever room, begins with the tokens up to the one behind a misplaced token. -/
theorem parse_error {f : ParseFailure} (h : parse room ts = .error f)
    (hdeep : f.misfit ≠ .tooDeep) : ∃ us rest, ts = us ++ rest ∧ rest.length = f.remaining ∧
      (∃ vs e, parse room (us ++ vs) = .ok e) ∧
        (f.misfit.IsMisplaced → ∀ us' room' e,
          us'.take (us.length + 2) = ts.take (us.length + 2) → parse room' us' ≠ .ok e) := by
  rw [parse_eq_readAll] at h
  obtain ⟨us, rest, rfl, hlength, ⟨n, vs, e, hn, hvs⟩, hahead⟩ :=
    (reads_readAll room ts).error f (eq_error_of_map_eq_error h) hdeep
  refine ⟨us, rest, rfl, hlength, ⟨vs, e, parse_eq_ok_iff.2 ⟨n, hn, hvs⟩⟩,
    fun hm us' room' e htake hparse => ?_⟩
  obtain ⟨rest', rfl, hrest⟩ := exists_append_of_take htake
  -- The expression would be found with room for both.
  obtain ⟨n, hn, hus'⟩ := parse_eq_ok_iff.1 hparse
  have hok := parse_eq_ok_iff.2 ⟨n, Nat.le_trans hn (Nat.le_max_right room room'), hus'⟩
  rw [parse_eq_readAll, hahead hm _ rest' (Nat.le_max_left room room') hrest] at hok
  cases hok

/-! ## Places -/

open ParseFailure in
/-- The position is that behind the first `i` tokens of a text, and not that behind another number
of them. -/
def IsPlace (ts : List Located) (stop position i : Nat) : Prop :=
  i ≤ ts.length ∧ ∀ j ≤ ts.length, positionAt ts stop j = position ↔ j = i

theorem Token.IsCut.isPlace {cs : List Char} {ls : List Located} (h : Token.IsCut cs ls) {i : Nat}
    (hi : i ≤ ls.length) :
    IsPlace ls cs.length (ParseFailure.positionAt ls cs.length i) i := by
  refine ⟨hi, fun j hj => ⟨fun hposition => ?_, fun hj => by rw [hj]⟩⟩
  rcases Nat.lt_trichotomy i j with hlt | rfl | hlt
  · exact absurd hposition (Nat.ne_of_gt (h.increasing i j hlt hj))
  · rfl
  · exact absurd hposition (Nat.ne_of_lt (h.increasing j i hlt hi))

open ParseFailure in
/-- A misfit is told of one place, as a misplaced token or as a range. -/
theorem ParseFailure.fault_cases {f : ParseFailure} (hdeep : f.misfit ≠ .tooDeep)
    (ts : List Located) (stop : Nat) :
    (f.misfit.IsMisplaced ∧ ∃ expected, f.fault ts stop = .misplacedToken expected
      (descriptionAt ts (f.index ts)) (positionAt ts stop (f.index ts))) ∨
      ∃ text, f.fault ts stop = .rangeAsValue text (some (positionAt ts stop (f.index ts))) := by
  unfold fault
  cases hmisfit : f.misfit with
  | expected what =>
    simp only
    split
    · exact .inr ⟨_, rfl⟩
    · exact .inl ⟨trivial, _, rfl⟩
  | rangeAsOperand | rangeBeforeOperator => exact .inr ⟨_, rfl⟩
  | badReference => exact .inl ⟨trivial, _, rfl⟩
  | tooDeep => exact absurd hmisfit hdeep

namespace Formula

variable {f : Formula} {ts : List Located}

theorem exists_of_tree_eq_error (hts : f.tokens = .ok ts) {fault : Fault}
    (h : f.tree = .error fault) : ∃ failure,
      parse maxNesting (ts.map (·.token)) = .error failure ∧
        failure.fault ts f.body.length = fault := by
  unfold tree at h
  rw [hts] at h
  simp only at h
  split at h
  · rename_i failure hfailure
    exact ⟨failure, hfailure, Except.error.inj h⟩
  · cases h

open ParseFailure in
/-- The place of a misfit among the tokens of a formula. -/
theorem place_of_parse (hts : f.tokens = .ok ts) {failure : ParseFailure}
    (h : parse maxNesting (ts.map (·.token)) = .error failure) (hdeep : failure.misfit ≠ .tooDeep) :
    IsPlace ts f.body.length (positionAt ts f.body.length (failure.index ts)) (failure.index ts) ∧
      IsViable ((ts.take (failure.index ts)).map (·.token)) ∧
        (failure.misfit.IsMisplaced → ∀ us room e,
          us.take (failure.index ts + 2) = (ts.take (failure.index ts + 2)).map (·.token) →
            parse room us ≠ .ok e) := by
  obtain ⟨us, rest, htokens, hlength, hviable, hdead⟩ := parse_error h hdeep
  have hindex : failure.index ts = us.length := by
    have hsum := congrArg List.length htokens
    rw [List.length_map, List.length_append, hlength] at hsum
    rw [index, hsum, Nat.add_sub_cancel]
  have hus : (ts.take us.length).map (·.token) = us := by
    rw [List.map_take, htokens, List.take_left]
  rw [hindex, hus]
  refine ⟨?_, hviable, fun hm us' room e htake => hdead hm us' room e (by rwa [← List.map_take])⟩
  have hcut := Token.isCut_of_scan hts
  rw [← String.length_toList]
  refine hcut.isPlace ?_
  rw [← hindex]
  exact Nat.sub_le _ _

/-- A misplaced token is one token of the formula, or its end. The tokens in front of it can be
continued to an expression, and no expression begins with the tokens up to the one behind it, where
the end counts as a token. The tokens in front of a range that stands where a value is wanted can be
continued, too. -/
theorem place_of_tree (hts : f.tokens = .ok ts) :
    (∀ expected found position, f.tree = .error (.misplacedToken expected found position) →
      Fault.misplacedToken expected found position ≠ .tooDeep →
        ∃ i, IsPlace ts f.body.length position i ∧ found = ParseFailure.descriptionAt ts i ∧
          IsViable ((ts.take i).map (·.token)) ∧
            ∀ us room e, us.take (i + 2) = (ts.take (i + 2)).map (·.token) →
              parse room us ≠ .ok e) ∧
      ∀ text position, f.tree = .error (.rangeAsValue text position) →
        ∃ i p, position = some p ∧ IsPlace ts f.body.length p i ∧
          IsViable ((ts.take i).map (·.token)) := by
  have hdeep : ∀ {failure : ParseFailure}, failure.fault ts f.body.length ≠ .tooDeep →
      failure.misfit ≠ .tooDeep := fun h hmisfit => h (by simp [ParseFailure.fault, hmisfit])
  constructor
  · intro expected found position htree hnot
    obtain ⟨failure, hparse, hfault⟩ := exists_of_tree_eq_error hts htree
    have hmisfit := hdeep (hfault ▸ hnot)
    obtain ⟨hplace, hviable, hdead⟩ := place_of_parse hts hparse hmisfit
    rcases failure.fault_cases hmisfit ts f.body.length with ⟨hm, what, hcase⟩ | ⟨text, hcase⟩
    · rw [hfault] at hcase
      obtain ⟨-, rfl, rfl⟩ := Fault.misplacedToken.inj hcase
      exact ⟨_, hplace, rfl, hviable, hdead hm⟩
    · cases hfault.symm.trans hcase
  · intro text position htree
    obtain ⟨failure, hparse, hfault⟩ := exists_of_tree_eq_error hts htree
    have hmisfit : failure.misfit ≠ .tooDeep := hdeep (by rw [hfault]; rintro ⟨⟩)
    obtain ⟨hplace, hviable, -⟩ := place_of_parse hts hparse hmisfit
    rcases failure.fault_cases hmisfit ts f.body.length with ⟨-, what, hcase⟩ | ⟨text', hcase⟩
    · cases hfault.symm.trans hcase
    · obtain ⟨-, rfl⟩ := Fault.rangeAsValue.inj (hfault.symm.trans hcase)
      exact ⟨_, _, rfl, hplace, hviable⟩

/-- One operator behind another is misplaced, and so is a range in parentheses, which is told of its
first corner. -/
theorem place_of_tree_operators :
    (∃ i, IsPlace [⟨.number .one, 0⟩, ⟨.plus, 1⟩, ⟨.times, 2⟩] 3 2 i ∧
      "'*'" = ParseFailure.descriptionAt [⟨.number .one, 0⟩, ⟨.plus, 1⟩, ⟨.times, 2⟩] i ∧
        IsViable ([.number .one, .plus, .times].take i)) ∧
      ∃ i, IsPlace [⟨.opening, 0⟩, ⟨.reference "A1", 1⟩, ⟨.colon, 3⟩] 4 1 i ∧
        IsViable ([.opening, .reference "A1", .colon].take i) := by
  have htokens : (⟨"=1+*", some "="⟩ : Formula).tokens =
      .ok [⟨.number .one, 0⟩, ⟨.plus, 1⟩, ⟨.times, 2⟩] := by cbv
  have htree : (⟨"=1+*", some "="⟩ : Formula).tree =
      .error (.misplacedToken Expected.operand.text "'*'" 2) := by cbv
  have htokens' : (⟨"=(A1:", some "="⟩ : Formula).tokens =
      .ok [⟨.opening, 0⟩, ⟨.reference "A1", 1⟩, ⟨.colon, 3⟩] := by cbv
  have htree' : (⟨"=(A1:", some "="⟩ : Formula).tree =
      .error (.rangeAsValue "A1:" (some 1)) := by cbv
  obtain ⟨i, hplace, hfound, hviable, -⟩ :=
    (place_of_tree htokens).1 _ _ _ htree (by simp [Fault.tooDeep])
  obtain ⟨j, p, hp, hplace', hviable'⟩ := (place_of_tree htokens').2 _ _ htree'
  obtain rfl := Option.some.inj hp
  rw [List.map_take] at hviable hviable'
  exact ⟨⟨i, hplace, hfound, hviable⟩, j, hplace', hviable'⟩

end Formula

end DecimalSheet
