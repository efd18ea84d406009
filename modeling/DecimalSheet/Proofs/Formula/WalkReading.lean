import DecimalSheet.Proofs.Formula.Parsing
import DecimalSheet.Proofs.Formula.Walk

/-!
# The walk reads what the parser reads

The walk along a marked list of tokens comes to the same end as the parser, which takes tokens off
the front of a list: at every index the tokens behind it are those that the parser has left. Each
function of the walk returns the tree that the function of the parser reads, at the index where this
one stops, or the walk ends with the same misfit at the same token.

## Main definitions

* `Walk.Leads items s s'`, `Walk.Ends items s h`: the walk comes from `s` to `s'`, and to its end
* `Walk.Mirrors ts s x next`: the walk from `s` does what the computation `x` tells

## Main results

* `Walk.mirrors_chain`: the walk reads sums and products
* `Walk.ends_start`: the walk over a whole list ends like the parser
-/

namespace DecimalSheet.Walk

open DecimalSheet.Expr

/-! ## Ways and ends -/

/-- The walk comes from one state to another. -/
def Leads (items : List (Option Token)) (s s' : State) : Prop := ∃ n, run items n s = .ok s'

/-- The walk comes to an end. -/
def Ends (items : List (Option Token)) (s : State) (h : Halt) : Prop :=
  ∃ n, run items n s = .error h

section Ways

variable {items : List (Option Token)} {s s' s'' : State} {h : Halt}

theorem Leads.refl : Leads items s s := ⟨0, rfl⟩

theorem Leads.trans (h : Leads items s s') (h' : Leads items s' s'') : Leads items s s'' := by
  obtain ⟨m, hm⟩ := h
  obtain ⟨n, hn⟩ := h'
  exact ⟨m + n, by rw [run_add, hm]; exact hn⟩

theorem Leads.of_step (h : step items s = .ok s') : Leads items s s' := by
  refine ⟨1, ?_⟩
  rw [run, h]
  rfl

theorem Leads.ends (hs : Leads items s s') (hend : Ends items s' h) : Ends items s h := by
  obtain ⟨m, hm⟩ := hs
  obtain ⟨n, hn⟩ := hend
  exact ⟨m + n, by rw [run_add, hm]; exact hn⟩

theorem Ends.of_step (hs : step items s = .error h) : Ends items s h := by
  refine ⟨1, ?_⟩
  rw [run, hs]
  rfl

end Ways

/-! ## States above the tokens that are left -/

variable {ts us : List Token} {t : Token} {room b : Nat} {control : Control} {stack : List Pending}
  {s s' : State} {α β : Type}

/-- The state of the walk over `ts` that has the tokens `us` before it. -/
def State.above (ts us : List Token) (room : Nat) (control : Control) (stack : List Pending) :
    State :=
  ⟨ts.length - us.length, room, control, stack⟩

theorem look_above (h : us <:+ ts) :
    look (Token.marked ts) (ts.length - us.length) = .ok us.head? := by
  obtain ⟨ws, rfl⟩ := h
  rw [look_marked (Nat.sub_le _ _), List.length_append, Nat.add_sub_cancel,
    List.getElem?_append_right (Nat.le_refl _), Nat.sub_self, List.head?_eq_getElem?]

theorem peek_above (h : us <:+ ts) :
    peek (Token.marked ts) (ts.length - us.length) = .ok us.tail.head? := by
  obtain ⟨ws, rfl⟩ := h
  rw [peek_marked (Nat.sub_le _ _), List.length_append, Nat.add_sub_cancel,
    List.getElem?_append_right (Nat.le_succ _), Nat.succ_sub (Nat.le_refl _), Nat.sub_self,
    List.head?_eq_getElem?, List.getElem?_tail]

theorem advance_above (h : t :: us <:+ ts) :
    advance (Token.marked ts) (ts.length - (t :: us).length) = .ok (ts.length - us.length) := by
  have hle := h.length_le
  rw [List.length_cons] at hle
  rw [advance, look_above h]
  show Except.ok (ts.length - (us.length + 1) + 1) = _
  congr 1
  omega

theorem suffix_of_cons (h : t :: us <:+ ts) : us <:+ ts := (List.suffix_cons t us).trans h

/-- The walk from the state `s` does what the computation `x` tells: it comes to the state that
belongs to the result, or ends with the misfit. -/
structure Mirrors (ts : List Token) (s : State) (x : Except ParseFailure (α × List Token))
    (next : α → List Token → State) : Prop where
  ok : ∀ a rest, x = .ok (a, rest) → rest <:+ ts ∧ Leads (Token.marked ts) s (next a rest)
  error : ∀ f, x = .error f → Ends (Token.marked ts) s (.misfit f.misfit (ts.length - f.remaining))

namespace Mirrors

variable {x : Except ParseFailure (α × List Token)} {next : α → List Token → State}

theorem done {a : α} (hrest : us <:+ ts) (h : Leads (Token.marked ts) s (next a us)) :
    Mirrors ts s (.ok (a, us)) next where
  ok a' rest hx := by
    obtain ⟨rfl, rfl⟩ := Prod.mk.inj (Except.ok.inj hx)
    exact ⟨hrest, h⟩
  error f hx := by cases hx

theorem fails {f : ParseFailure}
    (h : Ends (Token.marked ts) s (.misfit f.misfit (ts.length - f.remaining))) :
    Mirrors ts s (.error f) next where
  ok a rest hx := by cases hx
  error f' hx := by
    obtain rfl := Except.error.inj hx
    exact h

theorem misfit {m : Misfit}
    (h : step (Token.marked ts) s = .error (.misfit m (ts.length - us.length))) :
    Mirrors ts s (misfitAt m us) next :=
  fails (.of_step h)

theorem of_leads (h : Leads (Token.marked ts) s s') (hs' : Mirrors ts s' x next) :
    Mirrors ts s x next where
  ok a rest hx := by
    obtain ⟨hrest, hlead⟩ := hs'.ok a rest hx
    exact ⟨hrest, h.trans hlead⟩
  error f hx := h.ends (hs'.error f hx)

theorem of_step (h : step (Token.marked ts) s = .ok s') (hs' : Mirrors ts s' x next) :
    Mirrors ts s x next :=
  of_leads (.of_step h) hs'

theorem bind {next' : β → List Token → State}
    {f : α × List Token → Except ParseFailure (β × List Token)} (h : Mirrors ts s x next)
    (hnext : ∀ a rest, x = .ok (a, rest) → rest <:+ ts →
      Mirrors ts (next a rest) (f (a, rest)) next') : Mirrors ts s (x >>= f) next' := by
  cases hx : x with
  | error e => exact fails (h.error e hx)
  | ok p =>
    obtain ⟨hrest, hlead⟩ := h.ok p.1 p.2 hx
    exact of_leads hlead (hnext p.1 p.2 hx hrest)

theorem trans {next' : α → List Token → State} (h : Mirrors ts s x next)
    (hnext : ∀ a rest, Leads (Token.marked ts) (next a rest) (next' a rest)) :
    Mirrors ts s x next' where
  ok a rest hx := by
    obtain ⟨hrest, hlead⟩ := h.ok a rest hx
    exact ⟨hrest, hlead.trans (hnext a rest)⟩
  error := h.error

theorem map {next' : β → List Token → State} {g : α → β} (h : Mirrors ts s x next)
    (hnext : ∀ a rest, Leads (Token.marked ts) (next a rest) (next' (g a) rest)) :
    Mirrors ts s (x.map fun p => (g p.1, p.2)) next' := by
  cases hx : x with
  | error e => exact fails (h.error e hx)
  | ok p =>
    obtain ⟨hrest, hlead⟩ := h.ok p.1 p.2 hx
    exact done hrest (hlead.trans (hnext p.1 p.2))

end Mirrors

/-! ## Chains -/

/-- What the parser reads as a chain. -/
def Chain.read : Chain → Nat → List Token → Except ParseFailure (Expr × List Token)
  | .sum => readSum
  | .product => readProduct

/-- What the parser reads as an operand of a chain. -/
def Chain.readOperand : Chain → Nat → List Token → Except ParseFailure (Expr × List Token)
  | .sum => readProduct
  | .product => readFactor

/-- What the parser reads behind the first operand of a chain. -/
def Chain.readRest : Chain → Nat → Expr → List Token → Except ParseFailure (Expr × List Token)
  | .sum => readSumRest
  | .product => readProductRest

theorem Chain.read_eq (c : Chain) :
    c.read room us = c.readOperand room us >>= fun p => c.readRest room p.1 p.2 := by
  cases c
  · exact readSum_eq
  · exact readProduct_eq

theorem Chain.readRest_eq (c : Chain) (left : Expr) :
    c.readRest room left us =
      match us.head?.bind c.operator? with
      | none => .ok (left, us)
      | some op =>
        c.readOperand room us.tail >>= fun p => c.readRest room (.binary op left p.1) p.2 := by
  cases us with
  | nil =>
    cases c
    · exact readSumRest_nil
    · exact readProductRest_nil
  | cons t us =>
    cases c
    · exact readSumRest_cons
    · exact readProductRest_cons

/-! ## Steps -/

section Steps

variable {c : Chain} {left e : Expr} {op : Operator} {f : Pending} {value : Decimal} {text : String}
  {name : String} {args : List Expr}

variable (room control stack) in
theorem refuse_above (what : Expected) (h : us <:+ ts) :
    State.refuse (Token.marked ts) (.above ts us room control stack) what =
      .error (.misfit (.expected what) (ts.length - us.length)) := by
  simp only [State.refuse, State.above, look_above h, bind, Except.bind]

theorem step_give :
    step (Token.marked ts) (.above ts us room (.give e) (f :: stack)) =
      .ok (.above ts us (room + f.pause.cost) (f.resume e) stack) := rfl

/-- The room that a function has taken up is there again when it goes on. -/
theorem step_give_back (f : Pending) (h : f.pause.cost ≤ room) :
    step (Token.marked ts) (.above ts us (room - f.pause.cost) (.give e) (f :: stack)) =
      .ok (.above ts us room (f.resume e) stack) := by
  rw [step_give, Nat.sub_add_cancel h]

theorem step_enter_whole :
    step (Token.marked ts) (.above ts us room (.enter .whole) stack) =
      .ok (.above ts us room (.enter (.chain .sum)) (⟨ts.length - us.length, .whole⟩ :: stack)) :=
  rfl

theorem step_finish_nil :
    step (Token.marked ts) (.above ts [] room (.inside b (.finish e)) stack) =
      .ok (.above ts [] room (.give e) stack) := by
  simp only [step, State.above, State.proceed, look_above (List.nil_suffix), bind, Except.bind,
    List.head?_nil, if_true]
  rfl

theorem step_finish_cons (h : t :: us <:+ ts) :
    step (Token.marked ts) (.above ts (t :: us) room (.inside b (.finish e)) stack) =
      .error (.misfit (.expected .operatorOrEnd) (ts.length - (t :: us).length)) := by
  simp only [step, State.above, State.proceed, look_above h, bind, Except.bind, List.head?_cons,
    reduceCtorEq, if_false]
  exact refuse_above _ _ _ _ h

theorem step_enter_chain :
    step (Token.marked ts) (.above ts us room (.enter (.chain c)) stack) =
      .ok (.above ts us room (.enter c.operand) (⟨ts.length - us.length, .first c⟩ :: stack)) :=
  rfl

theorem step_chain_none (h : us <:+ ts) (hop : us.head?.bind c.operator? = none) :
    step (Token.marked ts) (.above ts us room (.inside b (.chain c left)) stack) =
      .ok (.above ts us room (.give left) stack) := by
  simp only [step, State.above, State.proceed, look_above h, bind, Except.bind, hop]
  rfl

theorem step_chain_some (h : t :: us <:+ ts) (hop : c.operator? t = some op) :
    step (Token.marked ts) (.above ts (t :: us) room (.inside b (.chain c left)) stack) =
      .ok (.above ts us room (.enter c.operand)
        (⟨b, .next c left op (ts.length - (t :: us).length)⟩ :: stack)) := by
  simp only [step, State.above, State.proceed, look_above h, advance_above h, bind, Except.bind,
    List.head?_cons, Option.bind, hop]
  rfl

variable (room stack) in
theorem step_factor_minus (h : .minus :: us <:+ ts) :
    step (Token.marked ts) (.above ts (.minus :: us) room (.enter .factor) stack) =
      if room < minusCost then .error (.misfit .tooDeep (ts.length - (Token.minus :: us).length))
      else .ok (.above ts us (room - minusCost) (.enter .factor)
        (⟨ts.length - (Token.minus :: us).length, .negated⟩ :: stack)) := by
  simp only [step, State.above, State.enter, look_above h, advance_above h, bind, Except.bind,
    List.head?_cons, if_true]
  rfl

theorem step_factor_plain (h : us <:+ ts) (hminus : us.head? ≠ some .minus) :
    step (Token.marked ts) (.above ts us room (.enter .factor) stack) =
      .ok (.above ts us room (.enter .atom) (⟨ts.length - us.length, .plain⟩ :: stack)) := by
  simp only [step, State.above, State.enter, look_above h, bind, Except.bind, hminus, if_false]
  rfl

theorem step_atom_number (h : .number value :: us <:+ ts) :
    step (Token.marked ts) (.above ts (.number value :: us) room (.enter .atom) stack) =
      .ok (.above ts us room (.give (.number value)) stack) := by
  simp only [step, State.above, State.enter, State.enterAtom, look_above h, advance_above h, bind,
    Except.bind, List.head?_cons]
  rfl

variable (room stack) in
theorem step_atom_opening (h : .opening :: us <:+ ts) :
    step (Token.marked ts) (.above ts (.opening :: us) room (.enter .atom) stack) =
      if room < groupCost then
        .error (.misfit .tooDeep (ts.length - (Token.opening :: us).length))
      else .ok (.above ts us (room - groupCost) (.enter (.chain .sum))
        (⟨ts.length - (Token.opening :: us).length, .group⟩ :: stack)) := by
  simp only [step, State.above, State.enter, State.enterAtom, look_above h, advance_above h, bind,
    Except.bind, List.head?_cons]
  rfl

variable (room stack) in
theorem step_atom_called (h : t :: .opening :: us <:+ ts) (hname : functionName? t = some name) :
    step (Token.marked ts) (.above ts (t :: .opening :: us) room (.enter .atom) stack) =
      if room < callCost then
        .error (.misfit .tooDeep (ts.length - (t :: .opening :: us).length))
      else .ok (.above ts (t :: .opening :: us) (room - callCost) (.enter .call)
        (⟨ts.length - (t :: .opening :: us).length, .called⟩ :: stack)) := by
  cases t with
  | name text | reference text =>
    simp only [step, State.above, State.enter, State.enterAtom, look_above h, peek_above h, bind,
      Except.bind, List.head?_cons, List.tail_cons]
    rfl
  | _ => cases hname

variable (room stack) in
theorem step_atom_reference (h : .reference text :: us <:+ ts) (hends : EndsAtom us) :
    step (Token.marked ts) (.above ts (.reference text :: us) room (.enter .atom) stack) =
      match Address.read text with
      | .ok a => .ok (.above ts us room (.give (.cell a)) stack)
      | .error _ => .error (.misfit .badReference
          (ts.length - (Token.reference text :: us).length)) := by
  simp only [step, State.above, State.enter, State.enterAtom, look_above h, peek_above h,
    advance_above h, bind, Except.bind, List.head?_cons, List.tail_cons]
  split
  · rename_i hopening
    exact absurd rfl (hends _ hopening).1
  · rename_i hcolon
    exact absurd rfl (hends _ hcolon).2
  · unfold State.addressOf
    cases Address.read text <;> rfl

theorem step_atom_range (h : .reference text :: .colon :: us <:+ ts) :
    step (Token.marked ts) (.above ts (.reference text :: .colon :: us) room (.enter .atom) stack) =
      .error (.misfit .rangeAsOperand
        (ts.length - (Token.reference text :: .colon :: us).length)) := by
  simp only [step, State.above, State.enter, State.enterAtom, look_above h, peek_above h, bind,
    Except.bind, List.head?_cons, List.tail_cons]

theorem step_atom_none (h : us <:+ ts) (hbegins : ¬BeginsAtom us) :
    step (Token.marked ts) (.above ts us room (.enter .atom) stack) =
      .error (.misfit (.expected .operand) (ts.length - us.length)) := by
  rcases us with _ | ⟨t, us⟩
  · simp only [step, State.above, State.enter, look_above h, bind, Except.bind, List.head?_nil]
    exact refuse_above _ _ _ _ h
  · simp only [step, State.above, State.enter, look_above h, bind, Except.bind, List.head?_cons]
    cases t with
    | number | opening | reference => exact absurd trivial hbegins
    | name text =>
      have hopening : us.head? ≠ some .opening := by
        intro hopening
        obtain ⟨us, rfl⟩ := List.head?_eq_some_iff.1 hopening
        exact hbegins trivial
      simp only [State.enterAtom, peek_above h, bind, Except.bind, List.tail_cons, hopening,
        if_false]
      exact refuse_above _ _ _ _ h
    | _ => exact refuse_above _ _ _ _ h

theorem step_enter_call (h : t :: us <:+ ts) (hname : functionName? t = some name) :
    step (Token.marked ts) (.above ts (t :: us) room (.enter .call) stack) =
      .ok (.above ts us room (.inside (ts.length - (t :: us).length) (.named name)) stack) := by
  simp only [step, State.above, State.enter, look_above h, advance_above h, bind, Except.bind,
    List.head?_cons, Option.bind, hname]
  rfl

theorem step_named (h : .opening :: us <:+ ts) :
    step (Token.marked ts) (.above ts (.opening :: us) room (.inside b (.named name)) stack) =
      .ok (.above ts us room (.inside b (.opened name)) stack) := by
  simp only [step, State.above, State.proceed, advance_above h, bind, Except.bind]
  rfl

theorem step_opened_closing (h : us <:+ ts) (hclosing : us.head? = some .closing) :
    step (Token.marked ts) (.above ts us room (.inside b (.opened name)) stack) =
      .ok (.above ts us room (.inside b (.ended name [])) stack) := by
  simp only [step, State.above, State.proceed, look_above h, bind, Except.bind, hclosing, if_true]
  rfl

theorem step_opened_argument (h : us <:+ ts) (hclosing : us.head? ≠ some .closing) :
    step (Token.marked ts) (.above ts us room (.inside b (.opened name)) stack) =
      .ok (.above ts us room (.enter .argument) (⟨b, .argument name [] none⟩ :: stack)) := by
  simp only [step, State.above, State.proceed, look_above h, bind, Except.bind, hclosing, if_false]
  rfl

theorem step_arguments_comma (h : .comma :: us <:+ ts) :
    step (Token.marked ts)
        (.above ts (.comma :: us) room (.inside b (.arguments name args)) stack) =
      .ok (.above ts us room (.enter .argument)
        (⟨b, .argument name args (some (ts.length - (Token.comma :: us).length))⟩ :: stack)) := by
  simp only [step, State.above, State.proceed, look_above h, advance_above h, bind, Except.bind,
    List.head?_cons, if_true]
  rfl

theorem step_arguments_ended (h : us <:+ ts) (hcomma : us.head? ≠ some .comma) :
    step (Token.marked ts) (.above ts us room (.inside b (.arguments name args)) stack) =
      .ok (.above ts us room (.inside b (.ended name args)) stack) := by
  simp only [step, State.above, State.proceed, look_above h, bind, Except.bind, hcomma, if_false]
  rfl

variable (room stack) in
theorem step_argument_range (h : .reference text :: .colon :: us <:+ ts) :
    step (Token.marked ts)
        (.above ts (.reference text :: .colon :: us) room (.enter .argument) stack) =
      match Address.read text with
      | .ok start => .ok (.above ts (.colon :: us) room
          (.inside (ts.length - (Token.reference text :: .colon :: us).length) (.corner start))
          stack)
      | .error _ => .error (.misfit .badReference
          (ts.length - (Token.reference text :: .colon :: us).length)) := by
  simp only [step, State.above, State.enter, look_above h, peek_above h, advance_above h, bind,
    Except.bind, List.head?_cons, List.tail_cons, if_true]
  unfold State.addressOf
  cases Address.read text <;> rfl

theorem step_argument_sum (h : us <:+ ts)
    (hrange : ¬∃ first rest, us = .reference first :: .colon :: rest) :
    step (Token.marked ts) (.above ts us room (.enter .argument) stack) =
      .ok (.above ts us room (.enter (.chain .sum))
        (⟨ts.length - us.length, .value⟩ :: stack)) := by
  simp only [step, State.above, State.enter, look_above h, peek_above h, bind, Except.bind]
  split
  · rename_i text htext
    obtain ⟨us, rfl⟩ := List.head?_eq_some_iff.1 htext
    have hcolon : us.head? ≠ some .colon := by
      intro hcolon
      obtain ⟨rest, rfl⟩ := List.head?_eq_some_iff.1 hcolon
      exact hrange ⟨text, rest, rfl⟩
    rw [List.tail_cons, if_neg hcolon]
    rfl
  · rfl

theorem step_corner {start : Address} (h : t :: us <:+ ts) :
    step (Token.marked ts) (.above ts (t :: us) room (.inside b (.corner start)) stack) =
      .ok (.above ts us room (.inside b (.colon start)) stack) := by
  simp only [step, State.above, State.proceed, advance_above h, bind, Except.bind]
  rfl

variable (room b stack) in
theorem step_colon_reference (start : Address) (h : .reference text :: us <:+ ts) :
    step (Token.marked ts)
        (.above ts (.reference text :: us) room (.inside b (.colon start)) stack) =
      match Address.read text with
      | .ok stop => .ok (.above ts us room (.inside b (.corners ⟨start, stop⟩)) stack)
      | .error _ => .error (.misfit .badReference
          (ts.length - (Token.reference text :: us).length)) := by
  simp only [step, State.above, State.proceed, look_above h, advance_above h, bind, Except.bind,
    List.head?_cons]
  unfold State.addressOf
  cases Address.read text <;> rfl

theorem step_colon_none {start : Address} (h : us <:+ ts)
    (htext : ∀ text, us.head? ≠ some (.reference text)) :
    step (Token.marked ts) (.above ts us room (.inside b (.colon start)) stack) =
      .error (.misfit (.expected .reference) (ts.length - us.length)) := by
  simp only [step, State.above, State.proceed, look_above h, bind, Except.bind]
  exact refuse_above _ _ _ _ h

variable (room b stack) in
theorem step_corners (r : Range) (h : us <:+ ts) :
    step (Token.marked ts) (.above ts us room (.inside b (.corners r)) stack) =
      if us.head?.any endsRange then .error (.misfit (.rangeBeforeOperator r) b)
      else if us.head? = some .comma ∨ us.head? = some .closing then
        .ok (.above ts us room (.give (.range r)) stack)
      else .error (.misfit (.expected .commaOrClosing) (ts.length - us.length)) := by
  have hrefuse := refuse_above room (.inside b (.corners r)) stack .commaOrClosing h
  simp only [State.above] at hrefuse
  simp only [step, State.above, State.proceed, look_above h, bind, Except.bind, hrefuse]
  rfl

end Steps

/-! ## What the walk reads -/

/-- The state in which a tree is returned in front of the rest. -/
def State.giving (ts : List Token) (room : Nat) (stack : List Pending) (e : Expr)
    (rest : List Token) : State :=
  .above ts rest room (.give e) stack

theorem mirrors_closed {point : Point} {e : Expr} {missing : Expected} (h : us <:+ ts)
    (hpoint : step (Token.marked ts) (.above ts us room (.inside b point) stack) =
      State.giveClosed (Token.marked ts) (.above ts us room (.inside b point) stack) e missing) :
    Mirrors ts (.above ts us room (.inside b point) stack) (close e missing us)
      (.giving ts room stack) := by
  by_cases hclosing : us.head? = some .closing
  · obtain ⟨rest, rfl⟩ := List.head?_eq_some_iff.1 hclosing
    refine .done (suffix_of_cons h) (.of_step (hpoint.trans ?_))
    simp only [State.giveClosed, State.above, look_above h, advance_above h, bind, Except.bind,
      List.head?_cons, if_true]
    rfl
  · rw [close_eq_misfitAt hclosing]
    refine .misfit (hpoint.trans ?_)
    simp only [State.giveClosed, State.above, look_above h, bind, Except.bind, hclosing, if_false]
    exact refuse_above _ _ _ _ h

theorem mirrors_close {e : Expr} (h : us <:+ ts) :
    Mirrors ts (.above ts us room (.inside b (.close e)) stack) (close e .closing us)
      (.giving ts room stack) :=
  mirrors_closed h rfl

theorem mirrors_ended {name : String} {args : List Expr} (h : us <:+ ts) :
    Mirrors ts (.above ts us room (.inside b (.ended name args)) stack)
      (close (.call name args) .commaOrClosing us) (.giving ts room stack) :=
  mirrors_closed h rfl

theorem Chain.readOperand_length_lt {c : Chain} {p : Expr × List Token}
    (h : c.readOperand room us = .ok p) : p.2.length < us.length := by
  cases c <;> exact Parsed.length_lt h

section Ranges

variable {first second : String} {start stop : Address}

theorem mirrors_corners (hfirst : Address.read first = .ok start)
    (hsecond : Address.read second = .ok stop) (h : us <:+ ts)
    (hb : b = ts.length - (Token.reference first :: .colon :: .reference second :: us).length) :
    Mirrors ts (.above ts us room (.inside b (.corners ⟨start, stop⟩)) stack)
      (readArgument room (.reference first :: .colon :: .reference second :: us))
      (.giving ts room stack) := by
  have hstep := step_corners room b stack ⟨start, stop⟩ h
  rw [readArgument_range hfirst hsecond]
  by_cases hends : us.head?.any endsRange
  · rw [if_pos hends] at hstep ⊢
    exact .misfit (hb ▸ hstep)
  · rw [if_neg hends] at hstep ⊢
    by_cases hnext : us.head? = some .comma ∨ us.head? = some .closing
    · rw [if_pos hnext] at hstep ⊢
      exact .done h (.of_step hstep)
    · rw [if_neg hnext] at hstep ⊢
      exact .misfit hstep

theorem mirrors_colon (hfirst : Address.read first = .ok start) (h : us <:+ ts)
    (hb : b = ts.length - (Token.reference first :: .colon :: us).length) :
    Mirrors ts (.above ts us room (.inside b (.colon start)) stack)
      (readArgument room (.reference first :: .colon :: us)) (.giving ts room stack) := by
  by_cases href : ∃ second, us.head? = some (.reference second)
  · obtain ⟨second, hsecond⟩ := href
    obtain ⟨us, rfl⟩ := List.head?_eq_some_iff.1 hsecond
    have hstep := step_colon_reference room b stack start h
    cases hsecond : Address.read second with
    | error =>
      rw [readArgument_badSecond hfirst hsecond]
      rw [hsecond] at hstep
      exact .misfit hstep
    | ok stop =>
      rw [hsecond] at hstep
      exact .of_step hstep (mirrors_corners hfirst hsecond (suffix_of_cons h) hb)
  · have hnot : ∀ text, us.head? ≠ some (.reference text) := fun text h => href ⟨text, h⟩
    rw [readArgument_noSecond hfirst hnot]
    exact .misfit (step_colon_none h hnot)

theorem mirrors_range (h : .reference first :: .colon :: us <:+ ts) :
    Mirrors ts (.above ts (.reference first :: .colon :: us) room (.enter .argument) stack)
      (readArgument room (.reference first :: .colon :: us)) (.giving ts room stack) := by
  have hstep := step_argument_range room stack h
  cases hfirst : Address.read first with
  | error =>
    rw [readArgument_badFirst hfirst]
    rw [hfirst] at hstep
    exact .misfit hstep
  | ok start =>
    rw [hfirst] at hstep
    have hcolon := suffix_of_cons h
    exact .of_step hstep (.of_step (step_corner hcolon)
      (mirrors_colon hfirst (suffix_of_cons hcolon) rfl))

end Ranges

-- The functions of the parser go on with shorter lists, or with the same list and a rule of a lower
-- rank. Behind the first part of a rule the list is shorter, since this part is not empty.
mutual

theorem mirrors_chain {us : List Token} {room : Nat} {stack : List Pending} (c : Chain)
    (h : us <:+ ts) :
    Mirrors ts (.above ts us room (.enter (.chain c)) stack) (c.read room us)
      (.giving ts room stack) := by
  rw [c.read_eq]
  refine .of_step step_enter_chain (.bind (mirrors_operand c h) fun e rest he hrest => ?_)
  have hlt : rest.length < us.length := Chain.readOperand_length_lt he
  exact .of_step step_give (mirrors_rest c e hrest)
termination_by 20 * us.length + 2 * (Rule.chain c).rank
decreasing_by
  · cases c <;> simp only [Rule.rank, Chain.operand] <;> omega
  · omega

theorem mirrors_operand {us : List Token} {room : Nat} {stack : List Pending} (c : Chain)
    (h : us <:+ ts) :
    Mirrors ts (.above ts us room (.enter c.operand) stack) (c.readOperand room us)
      (.giving ts room stack) :=
  match c with
  | .sum => mirrors_chain .product h
  | .product => mirrors_factor h
termination_by 20 * us.length + 2 * c.operand.rank + 1
decreasing_by
  · simp only [Rule.rank, Chain.operand]; omega
  · simp only [Rule.rank, Chain.operand]; omega

theorem mirrors_rest {us : List Token} {room b : Nat} {stack : List Pending} (c : Chain)
    (left : Expr) (h : us <:+ ts) :
    Mirrors ts (.above ts us room (.inside b (.chain c left)) stack) (c.readRest room left us)
      (.giving ts room stack) := by
  rw [c.readRest_eq]
  cases hop : us.head?.bind c.operator? with
  | none => exact .done h (.of_step (step_chain_none h hop))
  | some op =>
    obtain ⟨t, ht, hop⟩ := Option.bind_eq_some_iff.1 hop
    obtain ⟨vs, hus⟩ := List.head?_eq_some_iff.1 ht
    have hvs : vs.length < us.length := by rw [hus]; exact Nat.lt_succ_self _
    rw [hus] at h ⊢
    refine .of_step (step_chain_some h hop)
      (.bind (mirrors_operand c (suffix_of_cons h)) fun e rest he hrest => ?_)
    have hlt : rest.length < vs.length := Chain.readOperand_length_lt he
    exact .of_step step_give (mirrors_rest c _ hrest)
termination_by 20 * us.length
decreasing_by
  · cases c <;> simp only [Rule.rank, Chain.operand] <;> omega
  · omega

theorem mirrors_factor {us : List Token} {room : Nat} {stack : List Pending} (h : us <:+ ts) :
    Mirrors ts (.above ts us room (.enter .factor) stack) (readFactor room us)
      (.giving ts room stack) := by
  by_cases hminus : us.head? = some .minus
  · obtain ⟨vs, hus⟩ := List.head?_eq_some_iff.1 hminus
    have hvs : vs.length < us.length := by rw [hus]; exact Nat.lt_succ_self _
    rw [hus] at h ⊢
    have hstep := step_factor_minus room stack h
    rw [readFactor_minus]
    by_cases hroom : room < minusCost
    · rw [if_pos hroom] at hstep ⊢
      exact .misfit hstep
    · rw [if_neg hroom] at hstep ⊢
      exact .of_step hstep (.map (mirrors_factor (suffix_of_cons h)) fun e rest =>
        .of_step (step_give_back ⟨_, .negated⟩ (Nat.not_lt.1 hroom)))
  · rw [readFactor_eq_readAtom hminus]
    exact .of_step (step_factor_plain h hminus) (.trans (mirrors_atom h) fun e rest =>
      .of_step step_give)
termination_by 20 * us.length + 2 * Rule.factor.rank
decreasing_by
  · omega
  · simp only [Rule.rank]; omega

theorem mirrors_atom {us : List Token} {room : Nat} {stack : List Pending} (h : us <:+ ts) :
    Mirrors ts (.above ts us room (.enter .atom) stack) (readAtom room us)
      (.giving ts room stack) := by
  obtain ⟨value, vs, hus⟩ | ⟨vs, hus⟩ | ⟨t, name, vs, hus, hname⟩ | ⟨text, vs, hus, hends⟩ |
    ⟨text, vs, hus⟩ | hbegins := atom_cases us
  · rw [hus] at h ⊢
    rw [readAtom_number]
    exact .done (suffix_of_cons h) (.of_step (step_atom_number h))
  · -- a sum in parentheses
    have hvs : vs.length < us.length := by rw [hus]; exact Nat.lt_succ_self _
    rw [hus] at h ⊢
    have hstep := step_atom_opening room stack h
    rw [readAtom_opening]
    by_cases hroom : room < groupCost
    · rw [if_pos hroom] at hstep ⊢
      exact .misfit hstep
    · rw [if_neg hroom] at hstep ⊢
      refine .of_step hstep (.bind (mirrors_chain .sum (suffix_of_cons h)) fun e rest _ hrest => ?_)
      exact .of_step (step_give_back ⟨_, .group⟩ (Nat.not_lt.1 hroom)) (mirrors_close hrest)
  · -- a call
    have hvs : vs.length < us.length := by rw [hus, List.length_cons, List.length_cons]; omega
    rw [hus] at h ⊢
    have hstep := step_atom_called room stack h hname
    by_cases hroom : room < callCost
    · rw [readAtom_call hname, if_pos hroom]
      rw [if_pos hroom] at hstep
      exact .misfit hstep
    · rw [readAtom_eq_readCall hname (Nat.not_lt.1 hroom)]
      rw [if_neg hroom] at hstep
      have hopening := suffix_of_cons h
      refine .of_step hstep (.of_step (step_enter_call h hname) (.of_step (step_named hopening) ?_))
      exact .trans (mirrors_call name (suffix_of_cons hopening)) fun e rest =>
        .of_step (step_give_back ⟨_, .called⟩ (Nat.not_lt.1 hroom))
  · -- a reference
    rw [hus] at h ⊢
    have hstep := step_atom_reference room stack h hends
    rw [readAtom_reference hends, addressAt]
    cases hread : Address.read text with
    | ok a =>
      rw [hread] at hstep
      exact .done (suffix_of_cons h) (.of_step hstep)
    | error =>
      rw [hread] at hstep
      exact .misfit hstep
  · rw [hus] at h ⊢
    rw [readAtom_range]
    exact .misfit (step_atom_range h)
  · rw [readAtom_eq_misfitAt hbegins]
    exact .misfit (step_atom_none h hbegins)
termination_by 20 * us.length + 2 * Rule.atom.rank
decreasing_by
  · simp only [Rule.rank]; omega
  · simp only [Rule.rank]; omega

theorem mirrors_call {us : List Token} {room b : Nat} {stack : List Pending} (name : String)
    (h : us <:+ ts) :
    Mirrors ts (.above ts us room (.inside b (.opened name)) stack) (readCall name room us)
      (.giving ts room stack) := by
  unfold readCall
  by_cases hclosing : us.head? = some .closing
  · rw [if_pos hclosing]
    obtain ⟨us, rfl⟩ := List.head?_eq_some_iff.1 hclosing
    exact .of_step (step_opened_closing h hclosing) (mirrors_ended h)
  · rw [if_neg hclosing]
    exact .of_step (step_opened_argument h hclosing)
      (.bind (mirrors_arguments name [] none h) fun es rest _ hrest => mirrors_ended hrest)
termination_by 20 * us.length + 12
decreasing_by omega

theorem mirrors_arguments {us : List Token} {room b : Nat} {stack : List Pending} (name : String)
    (before : List Expr) (turn? : Option Nat) (h : us <:+ ts) :
    Mirrors ts (.above ts us room (.enter .argument) (⟨b, .argument name before turn?⟩ :: stack))
      (readArguments room us)
      fun es rest => .above ts rest room (.inside b (.ended name (before ++ es))) stack := by
  rw [readArguments_eq]
  refine .bind (mirrors_argument h) fun e rest he hrest => .of_step step_give ?_
  have hlt : rest.length < us.length := Parsed.length_lt he
  by_cases hcomma : rest.head? = some .comma
  · obtain ⟨vs, hvs⟩ := List.head?_eq_some_iff.1 hcomma
    have hvslt : vs.length < rest.length := by rw [hvs]; exact Nat.lt_succ_self _
    rw [hvs] at hrest ⊢
    refine .of_step (step_arguments_comma hrest)
      (.map (mirrors_arguments name (before ++ [e]) _ (suffix_of_cons hrest)) fun es rest => ?_)
    rw [List.append_assoc]
    exact .refl
  · have hmore : readMore e room rest = .ok ([e], rest) := readMore_eq_ok hcomma
    show Mirrors ts _ (readMore e room rest) _
    rw [hmore]
    exact .done hrest (.of_step (step_arguments_ended hrest hcomma))
termination_by 20 * us.length + 11
decreasing_by
  · simp only [Rule.rank]; omega
  · omega

theorem mirrors_argument {us : List Token} {room : Nat} {stack : List Pending} (h : us <:+ ts) :
    Mirrors ts (.above ts us room (.enter .argument) stack) (readArgument room us)
      (.giving ts room stack) := by
  by_cases hrange : ∃ first rest, us = .reference first :: .colon :: rest
  · obtain ⟨first, rest, hus⟩ := hrange
    subst hus
    exact mirrors_range h
  · rw [readArgument_eq_readSum hrange]
    exact .of_step (step_argument_sum h hrange) (.trans (mirrors_chain .sum h) fun e rest =>
      .of_step step_give)
termination_by 20 * us.length + 2 * Rule.argument.rank
decreasing_by
  simp only [Rule.rank]; omega

end

/-! ## Whole lists -/

/-- How the walk over so many tokens ends if the parser comes to the result. -/
def Halt.ofResult (length : Nat) : Except ParseFailure Expr → Halt
  | .ok e => .done e
  | .error f => .misfit f.misfit (length - f.remaining)

/-- The walk over a whole list ends like the parser. -/
theorem ends_start (room : Nat) (ts : List Token) :
    Ends (Token.marked ts) (.start room) (.ofResult ts.length (parse room ts)) := by
  have hstart : State.start room = .above ts ts room (.enter .whole) [] := by
    rw [State.above, Nat.sub_self, State.start]
  rw [hstart, parse_eq]
  refine Leads.ends (.of_step step_enter_whole) ?_
  let stack : List Pending := [⟨ts.length - ts.length, .whole⟩]
  have hsum : Mirrors ts (.above ts ts room (.enter (.chain .sum)) stack) (readSum room ts)
    (.giving ts room stack) := mirrors_chain .sum (List.suffix_refl ts)
  cases hread : readSum room ts with
  | error f => exact hsum.error f hread
  | ok p =>
    obtain ⟨hrest, hlead⟩ := hsum.ok p.1 p.2 hread
    refine hlead.ends (Leads.ends (.of_step step_give) ?_)
    obtain ⟨e, rest⟩ := p
    cases rest with
    | nil => exact Leads.ends (.of_step step_finish_nil) (.of_step rfl)
    | cons t rest => exact .of_step (step_finish_cons hrest)

end DecimalSheet.Walk
