import DecimalSheet.Formula.Parse

/-!
# The parser as a walk over a list

The parser step by step, as it goes along a list of tokens with an end mark behind the last one. It
knows the list by an index only: it looks at the item there or at the one behind it, and goes on by
one item at a time, but never past the mark. The functions of the rules call one another, and a
function that waits for another one is kept on a stack, with the index at which it was called. The
loops keep the index at which their last turn began.

Each step looks at a few items, goes on by one item at most, and then calls a function, goes on in
the same function, or returns. Nothing keeps a step from looking behind the mark, from asking for a
name where there is none, or the walk from going on forever; that none of this happens has to be
proved.

## Main definitions

* `Token.marked`: tokens and the end mark
* `Walk.Rule`, `Walk.Point`, `Walk.Pending`: the rules, the places within their functions, and the
  functions that wait for others
* `Walk.State`, `Walk.step`, `Walk.run`: the states of the walk and its steps
* `Walk.Halt`: how the walk ends
-/

namespace DecimalSheet

/-- Tokens with an end mark behind the last one. The mark is `none`. -/
def Token.marked (ts : List Token) : List (Option Token) := ts.map some ++ [none]

namespace Walk

open DecimalSheet.Expr

/-! ## Items -/

/-- How the walk ends. -/
inductive Halt where
  | done (tree : Expr)
  /-- The item with the index does not fit. -/
  | misfit (misfit : Misfit) (index : Nat)
  /-- There is no item where the walk looks. -/
  | outside
  /-- The item has no name of a function. -/
  | nameless

/-- The item with an index. -/
def look (items : List (Option Token)) (i : Nat) : Except Halt (Option Token) :=
  items[i]?.elim (.error .outside) .ok

/-- The item behind the one with the index, or the last one. -/
def peek (items : List (Option Token)) (i : Nat) : Except Halt (Option Token) :=
  look items (min (i + 1) (items.length - 1))

/-- The index of the item behind the one with the index. The mark is not passed. -/
def advance (items : List (Option Token)) (i : Nat) : Except Halt Nat := do
  return if (← look items i).isSome then i + 1 else i

/-! ## Rules and places -/

/-- The two rules that are chains of operands with operators between them. -/
inductive Chain where
  | sum
  | product

/-- A rule, and the whole list. -/
inductive Rule where
  | whole
  | chain (c : Chain)
  | factor
  | atom
  | call
  | argument

/-- The rank of a rule: a rule that may begin with another one has a higher rank. -/
def Rule.rank : Rule → Nat
  | whole => 6
  | argument => 5
  | chain .sum => 4
  | chain .product => 3
  | factor => 2
  | atom => 1
  | call => 0

/-- The operator that a token stands for in a chain. -/
def Chain.operator? : Chain → Token → Option Operator
  | sum => sumOperator?
  | product => productOperator?

/-- The rule of the operands of a chain. -/
def Chain.operand : Chain → Rule
  | sum => .chain product
  | product => .factor

/-- Where a function waits for the function that it has called. -/
inductive Pause where
  | whole
  /-- A chain waits for its first operand. -/
  | first (c : Chain)
  /-- A chain waits for the operand behind an operator, in a turn that began at an index. -/
  | next (c : Chain) (left : Expr) (op : Operator) (turn : Nat)
  /-- A factor waits for what follows a minus sign. -/
  | negated
  /-- A factor waits for an atom. -/
  | plain
  /-- An atom waits for the sum in parentheses. -/
  | group
  /-- An atom waits for a call. -/
  | called
  /-- A call waits for an argument, in a turn that began at an index unless it is the first one. -/
  | argument (name : String) (before : List Expr) (turn? : Option Nat)
  /-- An argument waits for a sum. -/
  | value

namespace Pause

/-- The rule of the function that waits. -/
def rule : Pause → Rule
  | whole => .whole
  | first c | next c _ _ _ => .chain c
  | negated | plain => .factor
  | group | called => .atom
  | argument _ _ _ => .call
  | value => .argument

/-- The index at which the turn of a loop began that goes on while the function waits. -/
def turn? : Pause → Option Nat
  | next _ _ _ turn => some turn
  | argument _ _ turn? => turn?
  | _ => none

/-- The room that is taken up while the function waits. -/
def cost : Pause → Nat
  | negated => minusCost
  | group => groupCost
  | called => callCost
  | _ => 0

end Pause

/-- A place within a function. -/
inductive Point where
  /-- The whole list has been read as a sum, and only the mark may follow. -/
  | finish (e : Expr)
  /-- The condition of the loop of a chain. -/
  | chain (c : Chain) (left : Expr)
  /-- Behind the sum of an atom in parentheses. -/
  | close (e : Expr)
  /-- Behind the name of a call. -/
  | named (name : String)
  /-- Behind the opening parenthesis of a call. -/
  | opened (name : String)
  /-- The condition of the loop of a call. -/
  | arguments (name : String) (args : List Expr)
  /-- Behind the last argument of a call. -/
  | ended (name : String) (args : List Expr)
  /-- Behind the first corner of a range. -/
  | corner (start : Address)
  /-- Behind the colon of a range. -/
  | colon (start : Address)
  /-- Behind the second corner of a range. -/
  | corners (r : Range)

/-- The rule of the function that a place belongs to. -/
def Point.rule : Point → Rule
  | finish _ => .whole
  | chain c _ => .chain c
  | close _ => .atom
  | named _ | opened _ | arguments _ _ | ended _ _ => .call
  | corner _ | colon _ | corners _ => .argument

/-! ## States -/

/-- A function that waits, and the index at which it was called. -/
structure Pending where
  began : Nat
  pause : Pause

/-- What comes next. -/
inductive Control where
  /-- A function is called. -/
  | enter (rule : Rule)
  /-- A function that was called at an index goes on. -/
  | inside (began : Nat) (point : Point)
  /-- A function returns a tree. -/
  | give (e : Expr)

/-- A state of the walk: the index, the room that is left, what comes next, and the functions that
wait, the last one first. -/
structure State where
  index : Nat
  room : Nat
  control : Control
  stack : List Pending

/-- The state before the first step. -/
def State.start (room : Nat) : State := ⟨0, room, .enter .whole, []⟩

/-! ## Steps -/

namespace State

variable (items : List (Option Token)) (s : State)

/-- A function that was called at the index `began` calls the function of a rule, which begins at
the index `i`. -/
def call (began : Nat) (p : Pause) (rule : Rule) (i : Nat) : Except Halt State :=
  if s.room < p.cost then .error (.misfit .tooDeep s.index)
  else .ok ⟨i, s.room - p.cost, .enter rule, ⟨began, p⟩ :: s.stack⟩

/-- A function that was called at the index `began` goes on at the index `i`. -/
def goOn (began : Nat) (point : Point) (i : Nat) : State :=
  { s with index := i, control := .inside began point }

/-- A function returns a tree and leaves the index `i`. -/
def give (e : Expr) (i : Nat) : State := { s with index := i, control := .give e }

/-- The item at the index is another one than what is asked for. -/
def refuse (what : Expected) : Except Halt State := do
  let _ ← look items s.index
  .error (.misfit (.expected what) s.index)

/-- Passes a closing parenthesis and returns a tree. -/
def giveClosed (e : Expr) (missing : Expected) : Except Halt State := do
  if (← look items s.index) = some .closing then
    return s.give e (← advance items s.index)
  else s.refuse items missing

/-- The address that the text of the reference at the index names. -/
def addressOf (text : String) : Except Halt Address :=
  match Address.read text with
  | .ok a => .ok a
  | .error _ => .error (.misfit .badReference s.index)

/-- The first step of an atom, which begins with the token `t`. -/
def enterAtom (t : Token) : Except Halt State := do
  match t with
  | .number value => return s.give (.number value) (← advance items s.index)
  | .opening => s.call s.index .group (.chain .sum) (← advance items s.index)
  | .name _ =>
    if (← peek items s.index) = some .opening then s.call s.index .called .call s.index
    else s.refuse items .operand
  | .reference text =>
    match ← peek items s.index with
    | some .opening => s.call s.index .called .call s.index
    | some .colon => .error (.misfit .rangeAsOperand s.index)
    | _ =>
      let i ← advance items s.index
      let a ← s.addressOf text
      return s.give (.cell a) i
  | _ => s.refuse items .operand

/-- The first step of a function. -/
def enter : Rule → Except Halt State
  | .whole => s.call s.index .whole (.chain .sum) s.index
  | .chain c => s.call s.index (.first c) c.operand s.index
  | .factor => do
    if (← look items s.index) = some .minus then
      s.call s.index .negated .factor (← advance items s.index)
    else s.call s.index .plain .atom s.index
  | .atom => do
    match ← look items s.index with
    | some t => s.enterAtom items t
    | none => s.refuse items .operand
  | .call => do
    match (← look items s.index).bind functionName? with
    | some name => return s.goOn s.index (.named name) (← advance items s.index)
    | none => .error .nameless
  | .argument => do
    match ← look items s.index with
    | some (.reference text) =>
      if (← peek items s.index) = some .colon then
        let i ← advance items s.index
        let start ← s.addressOf text
        return s.goOn s.index (.corner start) i
      else s.call s.index .value (.chain .sum) s.index
    | _ => s.call s.index .value (.chain .sum) s.index

/-- A step from a place within a function that was called at the index `began`. -/
def proceed (began : Nat) : Point → Except Halt State
  | .finish e => do
    if (← look items s.index) = none then return s.give e s.index
    else s.refuse items .operatorOrEnd
  | .chain c left => do
    match (← look items s.index).bind c.operator? with
    | some op => s.call began (.next c left op s.index) c.operand (← advance items s.index)
    | none => return s.give left s.index
  | .close e => s.giveClosed items e .closing
  | .named name => return s.goOn began (.opened name) (← advance items s.index)
  | .opened name => do
    if (← look items s.index) = some .closing then return s.goOn began (.ended name []) s.index
    else s.call began (.argument name [] none) .argument s.index
  | .arguments name args => do
    if (← look items s.index) = some .comma then
      s.call began (.argument name args (some s.index)) .argument (← advance items s.index)
    else return s.goOn began (.ended name args) s.index
  | .ended name args => s.giveClosed items (.call name args) .commaOrClosing
  | .corner start => return s.goOn began (.colon start) (← advance items s.index)
  | .colon start => do
    match ← look items s.index with
    | some (.reference text) =>
      let i ← advance items s.index
      let stop ← s.addressOf text
      return s.goOn began (.corners ⟨start, stop⟩) i
    | _ => s.refuse items .reference
  | .corners r => do
    let t ← look items s.index
    -- The range is what is wrong before an operator, and the function began at the range.
    if t.any endsRange then .error (.misfit (.rangeBeforeOperator r) began)
    else if t = some .comma ∨ t = some .closing then return s.give (.range r) s.index
    else s.refuse items .commaOrClosing

end State

/-- How a function goes on that has waited for the tree `e`. -/
def Pending.resume (f : Pending) (e : Expr) : Control :=
  match f.pause with
  | .whole => .inside f.began (.finish e)
  | .first c => .inside f.began (.chain c e)
  | .next c left op _ => .inside f.began (.chain c (.binary op left e))
  | .negated => .give (.negate e)
  | .plain | .called | .value => .give e
  | .group => .inside f.began (.close e)
  | .argument name before _ => .inside f.began (.arguments name (before ++ [e]))

/-- One step of the walk. -/
def step (items : List (Option Token)) (s : State) : Except Halt State :=
  match s.control with
  | .enter rule => s.enter items rule
  | .inside began point => s.proceed items began point
  | .give e =>
    match s.stack with
    | [] => .error (.done e)
    | f :: stack => .ok ⟨s.index, s.room + f.pause.cost, f.resume e, stack⟩

/-- Some steps of the walk, unless it ends before. -/
def run (items : List (Option Token)) : Nat → State → Except Halt State
  | 0, s => .ok s
  | n + 1, s => step items s >>= run items n

theorem run_add {items : List (Option Token)} (m n : Nat) (s : State) :
    run items (m + n) s = run items m s >>= run items n := by
  induction m generalizing s with
  | zero => rw [Nat.zero_add, run]; rfl
  | succ m ih =>
    rw [Nat.succ_add, run, run]
    cases step items s with
    | error e => rfl
    | ok s' => exact ih s'

/-! ## Items of a marked list -/

section Marked

variable {ts : List Token} {t : Token} {i : Nat}

theorem look_marked (h : i ≤ ts.length) : look (Token.marked ts) i = .ok ts[i]? := by
  have hitem : (Token.marked ts)[i]? = some ts[i]? := by
    rcases Nat.lt_or_eq_of_le h with hlt | rfl
    · simp [Token.marked, List.getElem?_append_left, hlt]
    · simp [Token.marked]
  rw [look, hitem]
  rfl

theorem peek_marked (h : i ≤ ts.length) : peek (Token.marked ts) i = .ok ts[i + 1]? := by
  have hlength : (Token.marked ts).length = ts.length + 1 := by simp [Token.marked]
  rw [peek, hlength, Nat.add_sub_cancel]
  rcases Nat.lt_or_eq_of_le h with hlt | rfl
  · rw [Nat.min_eq_left hlt, look_marked hlt]
  · -- behind the mark is the mark
    rw [Nat.min_eq_right (Nat.le_succ _), look_marked h]
    simp

theorem le_length_of_getElem? (h : ts[i]? = some t) : i + 1 ≤ ts.length :=
  (List.getElem?_eq_some_iff.1 h).1

theorem advance_marked (h : ts[i]? = some t) : advance (Token.marked ts) i = .ok (i + 1) := by
  rw [advance, look_marked (Nat.le_of_succ_le (le_length_of_getElem? h)), h]
  rfl

end Marked

end Walk

end DecimalSheet
