import DecimalSheet.Formula.Expr
import DecimalSheet.Function.Registry

/-!
# Formulas as programs

What a formula does when it is evaluated, apart from the cells around it: a program asks for the
value of one cell after the other and, from the values that it is given, computes its own. A
program knows how large the grid is and asks only for cells inside of it.

The order is that of the text. A function is looked up before its arguments are computed, a range
asks for one member at a time, row by row, and nothing is asked for after the first fault.

## Main definitions

* `Program α`: computations of an `α` that ask for the values of cells
* `Setting`: what a formula may use besides the values of cells
* `Expr.program`: an expression as a program

## Main results

* `Program.bind_assoc`: programs that follow one another may be grouped in either way
-/

namespace DecimalSheet

/-- A computation that asks for the values of cells. -/
inductive Program (α : Type) where
  /-- The computation is over. -/
  | done (value : α)
  /-- The computation fails or is given up. -/
  | raise (raised : Raised)
  /-- The computation goes on with the value of the cell at an address. -/
  | ask (address : Address) (next : Decimal → Program α)

namespace Program

/-- One program after the other, the second of which uses the result of the first. -/
protected def bind {α β : Type} (p : Program α) (f : α → Program β) : Program β :=
  match p with
  | done value => f value
  | raise raised => raise raised
  | ask address next => ask address fun v => (next v).bind f

instance : Monad Program where
  pure := done
  bind := Program.bind

@[simp] theorem pure_eq {α : Type} (value : α) : (pure value : Program α) = done value := rfl

@[simp] theorem done_bind {α β : Type} (value : α) (f : α → Program β) :
    (done value >>= f) = f value := rfl

@[simp] theorem raise_bind {α β : Type} (raised : Raised) (f : α → Program β) :
    (raise raised >>= f) = raise raised := rfl

@[simp] theorem ask_bind {α β : Type} (a : Address) (next : Decimal → Program α)
    (f : α → Program β) : (ask a next >>= f) = ask a fun v => next v >>= f := rfl

theorem bind_assoc {α β γ : Type} (p : Program α) (f : α → Program β) (g : β → Program γ) :
    p >>= f >>= g = p >>= fun x => f x >>= g := by
  induction p with
  | done | raise => rfl
  | ask a next ih => simp [ih]

/-- The program that has a result, or its lack, from the start. -/
def ofExcept {α : Type} : Except Raised α → Program α
  | .ok value => done value
  | .error raised => raise raised

end Program

/-! ## Expressions -/

/-- What a formula may use besides the values of cells. -/
structure Setting where
  /-- The number of rows of the grid. -/
  height : Nat
  /-- The number of columns of the grid. -/
  width : Nat
  functions : Registry
  /-- The places after the point to which quotients are rounded. -/
  scale : Int

namespace Setting

/-- Asks for the value of a cell and goes on with it, unless the cell lies outside of the grid. -/
def request {α : Type} (s : Setting) (a : Address) (next : Decimal → Program α) : Program α :=
  if a.IsWithin s.height s.width then .ask a next else .raise (.fault (.outsideGrid a))

/-- Asks for `count` members of a range from the member with the number `i` on. Their values are
put before those found so far, so that the last one comes first. -/
def members (s : Setting) (r : Range) (i : Nat) (found : List Decimal) (count : Nat) :
    Program (List Decimal) :=
  match count with
  | 0 => .done found
  | count + 1 => s.request (r.member i) fun v => s.members r (i + 1) (v :: found) count

/-- Asks for the members of a range that is an argument. There is nothing to ask for if the range
lies too deep. -/
def argumentMembers (s : Setting) (room : Nat) (r : Range) (found : List Decimal) :
    Program (List Decimal) :=
  if room = 0 then .raise (.fault .tooDeep) else s.members r 0 found r.size

/-- The result of an operator. Both operands have been computed before an unknown operator is
refused. -/
def apply (s : Setting) (op : Operator) (a b : Decimal) : Program Decimal :=
  match op with
  | .add => .done (a.add b)
  | .sub => .done (a.sub b)
  | .mul => .done (a.mul b)
  | .div => .ofExcept ((Decimal.divide a b s.scale).mapError .ofQuotientError)
  | .unknown symbol => .raise (.abort (.unknownOperator symbol))

end Setting

namespace Expr

mutual

/-- An expression as a program. It fails at the first node that lies below `room` others. -/
def program (s : Setting) (room : Nat) (e : Expr) : Program Decimal :=
  match room with
  | 0 => .raise (.fault .tooDeep)
  | room + 1 =>
    match e with
    | number value => .done value
    | cell a => s.request a .done
    | range r => .raise (.fault (.rangeAsValue r.text none))
    | negate operand => do
      let a ← operand.program s room
      .done a.neg
    | binary op left right => do
      let a ← left.program s room
      let b ← right.program s room
      s.apply op a b
    | call name args =>
      -- An unknown name fails before any argument is computed.
      match s.functions.lookup name with
      | .error fault => .raise (.fault fault)
      | .ok f => do
        let found ← argumentsProgram s room [] args
        .ofExcept (f found.reverse)
    | foreign value => .raise (.abort (.unknownNode value))

/-- The arguments of a function as a program. A range stands for its members. The values are put
before those found so far, so that the last one comes first. -/
def argumentsProgram (s : Setting) (room : Nat) (found : List Decimal) :
    List Expr → Program (List Decimal)
  | [] => .done found
  | range r :: args => do
    let found ← s.argumentMembers room r found
    argumentsProgram s room found args
  | e :: args => do
    let v ← e.program s room
    argumentsProgram s room (v :: found) args

end

theorem argumentsProgram_cons {s : Setting} {room : Nat} {found : List Decimal} {e : Expr}
    {args : List Expr} (he : ¬∃ r, e = range r) :
    argumentsProgram s room found (e :: args) =
      e.program s room >>= fun v => argumentsProgram s room (v :: found) args := by
  cases e with
  | range r => exact absurd ⟨r, rfl⟩ he
  | _ => simp only [argumentsProgram]

end Expr

end DecimalSheet
