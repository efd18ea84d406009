import DecimalSheet.Proofs.Formula.Grammar

/-!
# The parser without proofs

The functions of the parser carry proofs about the lengths of their lists. Here they are looked at
without these proofs, as functions to a tree and the tokens after it, with one equation for each
rule and each kind of first tokens.

## Main definitions

* `readSum`, `readProduct`, `readFactor`, `readAtom`, `readArguments`, `readArgument`: the parser
  without proofs

## Main results

* `readSum_eq`, `readProduct_eq`, `readArguments_eq`, `readArgument_eq`: the rules
* `readAtom_number`, `readAtom_opening`, `readAtom_call`, `readAtom_reference`: the kinds of atoms
-/

namespace DecimalSheet

namespace Expr

/-- What a rule reads, without the proof about lengths. -/
def Parsed.read {α : Type} {ts : List Token} (p : Parsed α ts) : α × List Token := (p.value, p.rest)

theorem Parsed.length_lt {α : Type} {ts : List Token} {x : Except ParseFailure (Parsed α ts)}
    {p : α × List Token} (h : x.map Parsed.read = .ok p) : p.2.length < ts.length := by
  cases x with
  | error e => cases h
  | ok q =>
    obtain rfl := Except.ok.inj h
    exact q.shorter

/-- What a chain of operators reads, without the proof about lengths. -/
def Extended.read {ts : List Token} (p : Extended ts) : Expr × List Token := (p.value, p.rest)

def readSum (room : Nat) (ts : List Token) : Except ParseFailure (Expr × List Token) :=
  (parseSum room ts).map Parsed.read

def readSumRest (room : Nat) (left : Expr) (ts : List Token) :
    Except ParseFailure (Expr × List Token) :=
  (parseSumRest room left ts).map Extended.read

def readProduct (room : Nat) (ts : List Token) : Except ParseFailure (Expr × List Token) :=
  (parseProduct room ts).map Parsed.read

def readProductRest (room : Nat) (left : Expr) (ts : List Token) :
    Except ParseFailure (Expr × List Token) :=
  (parseProductRest room left ts).map Extended.read

def readFactor (room : Nat) (ts : List Token) : Except ParseFailure (Expr × List Token) :=
  (parseFactor room ts).map Parsed.read

def readAtom (room : Nat) (ts : List Token) : Except ParseFailure (Expr × List Token) :=
  (parseAtom room ts).map Parsed.read

def readArguments (room : Nat) (ts : List Token) : Except ParseFailure (List Expr × List Token) :=
  (parseArguments room ts).map Parsed.read

def readArgument (room : Nat) (ts : List Token) : Except ParseFailure (Expr × List Token) :=
  (parseArgument room ts).map Parsed.read

/-- The tokens after a closing parenthesis, with a tree for what it closes. -/
def close (e : Expr) (missing : Expected) : List Token → Except ParseFailure (Expr × List Token)
  | .closing :: rest => .ok (e, rest)
  | rest => misfitAt (.expected missing) rest

variable {room : Nat} {ts : List Token}

theorem readSum_eq :
    readSum room ts = readProduct room ts >>= fun p => readSumRest room p.1 p.2 := by
  unfold readSum readProduct readSumRest
  rw [parseSum]
  cases parseProduct room ts with
  | error e => rfl
  | ok p =>
    cases h : parseSumRest room p.value p.rest <;>
      simp [h, Except.map, bind, Except.bind, Parsed.read, Extended.read]

@[simp] theorem readSumRest_nil {left : Expr} : readSumRest room left [] = .ok (left, []) := by
  unfold readSumRest
  rw [parseSumRest]
  rfl

theorem readSumRest_cons {left : Expr} {t : Token} :
    readSumRest room left (t :: ts) =
      match sumOperator? t with
      | none => .ok (left, t :: ts)
      | some op =>
        readProduct room ts >>= fun p => readSumRest room (.binary op left p.1) p.2 := by
  unfold readSumRest readProduct
  rw [parseSumRest]
  cases sumOperator? t with
  | none => rfl
  | some op =>
    cases parseProduct room ts with
    | error e => rfl
    | ok p =>
      cases h : parseSumRest room (.binary op left p.value) p.rest <;>
        simp [h, Except.map, bind, Except.bind, Parsed.read, Extended.read]

theorem readProduct_eq :
    readProduct room ts = readFactor room ts >>= fun p => readProductRest room p.1 p.2 := by
  unfold readProduct readFactor readProductRest
  rw [parseProduct]
  cases parseFactor room ts with
  | error e => rfl
  | ok p =>
    cases h : parseProductRest room p.value p.rest <;>
      simp [h, Except.map, bind, Except.bind, Parsed.read, Extended.read]

@[simp] theorem readProductRest_nil {left : Expr} :
    readProductRest room left [] = .ok (left, []) := by
  unfold readProductRest
  rw [parseProductRest]
  rfl

theorem readProductRest_cons {left : Expr} {t : Token} :
    readProductRest room left (t :: ts) =
      match productOperator? t with
      | none => .ok (left, t :: ts)
      | some op =>
        readFactor room ts >>= fun p => readProductRest room (.binary op left p.1) p.2 := by
  unfold readProductRest readFactor
  rw [parseProductRest]
  cases productOperator? t with
  | none => rfl
  | some op =>
    cases parseFactor room ts with
    | error e => rfl
    | ok p =>
      cases h : parseProductRest room (.binary op left p.value) p.rest <;>
        simp [h, Except.map, bind, Except.bind, Parsed.read, Extended.read]

theorem readFactor_minus :
    readFactor room (.minus :: ts) =
      if room < minusCost then misfitAt .tooDeep (.minus :: ts)
      else (readFactor (room - minusCost) ts).map fun p => (.negate p.1, p.2) := by
  unfold readFactor
  rw [parseFactor]
  split
  · rfl
  · cases parseFactor (room - minusCost) ts <;> rfl

theorem readFactor_eq_readAtom (h : ts.head? ≠ some .minus) :
    readFactor room ts = readAtom room ts := by
  unfold readFactor readAtom
  rw [parseFactor]
  rintro rest rfl
  exact h rfl

theorem readAtom_number {value : Decimal} :
    readAtom room (.number value :: ts) = .ok (.number value, ts) := by
  unfold readAtom
  rw [parseAtom]
  rfl

theorem readAtom_opening :
    readAtom room (.opening :: ts) =
      if room < groupCost then misfitAt .tooDeep (.opening :: ts)
      else readSum (room - groupCost) ts >>= fun p => close p.1 .closing p.2 := by
  unfold readAtom readSum
  rw [parseAtom]
  split
  · rfl
  · rcases parseSum (room - groupCost) ts with _ | ⟨e, _ | ⟨t, rest⟩, hlt⟩
    · rfl
    · rfl
    · cases t <;> rfl

theorem readAtom_call {t : Token} {name : String} (hname : functionName? t = some name) :
    readAtom room (t :: .opening :: ts) =
      if room < callCost then misfitAt .tooDeep (t :: .opening :: ts)
      else if ts.head? = some .closing then .ok (.call name [], ts.tail)
      else readArguments (room - callCost) ts >>= fun p =>
        close (.call name p.1) .commaOrClosing p.2 := by
  unfold readAtom readArguments
  rw [parseAtom]
  · simp only [hname]
    split
    · rfl
    · split
      · -- no arguments
        simp [Except.map, Parsed.read]
      · rename_i hne
        rw [if_neg (by cases ts <;> simp_all)]
        rcases parseArguments (room - callCost) ts with _ | ⟨es, _ | ⟨u, rest⟩, hlt⟩
        · rfl
        · rfl
        · cases u <;> rfl
  -- The rules for numbers and parentheses come first, but they do not apply to names.
  · rintro value rfl
    cases hname
  · rintro rfl
    cases hname

theorem readAtom_reference {text : String} (h : EndsAtom ts) :
    readAtom room (.reference text :: ts) =
      (addressAt text (.reference text :: ts)).map fun a => (.cell a, ts) := by
  unfold readAtom
  rw [parseAtom]
  · cases addressAt text (.reference text :: ts) <;> rfl
  -- The rules for calls and ranges come first, but the next token is not theirs.
  · rintro rest rfl
    exact absurd rfl (h _ rfl).1
  · rintro rest rfl
    exact absurd rfl (h _ rfl).2

theorem readArguments_eq :
    readArguments room ts = readArgument room ts >>= fun p =>
      match p.2 with
      | .comma :: rest => (readArguments room rest).map fun q => (p.1 :: q.1, q.2)
      | rest => .ok ([p.1], rest) := by
  unfold readArguments readArgument
  rw [parseArguments]
  rcases parseArgument room ts with _ | ⟨e, _ | ⟨t, rest⟩, hlt⟩
  · rfl
  · rfl
  · -- only a comma goes on
    cases t <;> try rfl
    simp only [Except.map, bind, Except.bind, Parsed.read]
    cases parseArguments room rest <;> rfl

theorem readArgument_eq :
    readArgument room ts =
      match parseRange? ts with
      | some r => r.map Parsed.read
      | none => readSum room ts := by
  unfold readArgument readSum
  rw [parseArgument]
  cases parseRange? ts <;> rfl

end Expr

end DecimalSheet
