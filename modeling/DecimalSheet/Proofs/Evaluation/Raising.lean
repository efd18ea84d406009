import DecimalSheet.Proofs.Evaluation.Requests
import DecimalSheet.Proofs.Formula.RoundTrip

/-!
# What formulas raise

What the program of an expression raises instead of a value is told by the expression: there may be
no room for a part of it, a reference may lie outside of the grid, and otherwise it comes from an
operator, from a function or from a part that has no value.

Of all this, little is left for the tree of a formula with functions that refuse at most no values
and a scale that is not negative. Such a tree has only parts that have values, and nothing in it
makes a computation give up.

## Main definitions

* `Program.RaisesOnly P p`: what the program may raise has the property `P`
* `Expr.MayRaise s e raised`: the evaluation of an expression may end without a value
* `Fault.IsExpected`: the faults that are left for formulas

## Main results

* `Expr.raisesOnly_program`: the program of an expression raises only what the expression tells
* `Formula.raisesOnly_isExpected`: the programs of formulas raise only faults that are expected
-/

namespace DecimalSheet

namespace Program

variable {α β : Type} {P Q : Raised → Prop}

/-- Whatever values the program is given, what it may raise has the property. -/
def RaisesOnly (P : Raised → Prop) : Program α → Prop
  | done _ => True
  | raise raised => P raised
  | ask _ next => ∀ v, (next v).RaisesOnly P

theorem RaisesOnly.imp {p : Program α} (h : p.RaisesOnly P) (hPQ : ∀ raised, P raised → Q raised) :
    p.RaisesOnly Q := by
  induction p with
  | done value => trivial
  | raise raised => exact hPQ raised h
  | ask a next ih => exact fun v => ih v (h v)

theorem RaisesOnly.bind {p : Program α} {f : α → Program β} (h : p.RaisesOnly P)
    (hf : ∀ v, (f v).RaisesOnly P) : (p >>= f).RaisesOnly P := by
  induction p with
  | done value => exact hf value
  | raise raised => exact h
  | ask a next ih => exact fun v => ih v (h v)

theorem raisesOnly_ofExcept {x : Except Raised α} (h : ∀ raised, x = .error raised → P raised) :
    (ofExcept x).RaisesOnly P := by
  cases x with
  | ok value => trivial
  | error raised => exact h raised rfl

end Program

namespace Setting

variable {α : Type} {s : Setting} {P : Raised → Prop}

theorem raisesOnly_request {a : Address} {next : Decimal → Program α}
    (ha : ¬a.IsWithin s.height s.width → P (.fault (.outsideGrid a)))
    (h : ∀ v, (next v).RaisesOnly P) : (s.request a next).RaisesOnly P := by
  unfold request
  split
  · exact h
  · rename_i houtside
    exact ha houtside

theorem raisesOnly_members {r : Range} {i : Nat} {found : List Decimal} {count : Nat}
    (hP : ∀ j < count, ¬(r.member (i + j)).IsWithin s.height s.width →
      P (.fault (.outsideGrid (r.member (i + j))))) :
    (s.members r i found count).RaisesOnly P := by
  induction count generalizing i found with
  | zero => trivial
  | succ count ih =>
    refine raisesOnly_request (hP 0 (Nat.succ_pos count)) fun v => ih fun j hj => ?_
    have hmember := hP (j + 1) (Nat.succ_lt_succ hj)
    rwa [Nat.add_comm j 1, ← Nat.add_assoc] at hmember

theorem raisesOnly_argumentMembers {room : Nat} {r : Range} {found : List Decimal}
    (hdeep : P (.fault .tooDeep))
    (hP : ∀ i < r.size, ¬(r.member i).IsWithin s.height s.width →
      P (.fault (.outsideGrid (r.member i)))) :
    (s.argumentMembers room r found).RaisesOnly P := by
  unfold argumentMembers
  split
  · exact hdeep
  · refine raisesOnly_members fun j hj => ?_
    rw [Nat.zero_add]
    exact hP j hj

end Setting

/-! ## Expressions -/

namespace Expr

variable {s : Setting}

/-- The evaluation of an expression may end so, instead of with a value. -/
inductive MayRaise (s : Setting) : Expr → Raised → Prop
  /-- There may be no room for the expression. -/
  | tooDeep {e : Expr} : MayRaise s e (.fault .tooDeep)
  | cell {a : Address} (ha : ¬a.IsWithin s.height s.width) :
    MayRaise s (.cell a) (.fault (.outsideGrid a))
  | range {r : Range} : MayRaise s (.range r) (.fault (.rangeAsValue r.text none))
  | negate {operand : Expr} {raised : Raised} (h : MayRaise s operand raised) :
    MayRaise s (.negate operand) raised
  | left {op : Operator} {left right : Expr} {raised : Raised} (h : MayRaise s left raised) :
    MayRaise s (.binary op left right) raised
  | right {op : Operator} {left right : Expr} {raised : Raised} (h : MayRaise s right raised) :
    MayRaise s (.binary op left right) raised
  | quotient {left right : Expr} {a b : Decimal} {e : QuotientError}
    (h : a.divide b s.scale = .error e) : MayRaise s (.binary .div left right) (.ofQuotientError e)
  | unknownOperator {symbol : String} {left right : Expr} :
    MayRaise s (.binary (.unknown symbol) left right) (.abort (.unknownOperator symbol))
  | unknownFunction {name : String} {args : List Expr} {fault : Fault}
    (h : s.functions.lookup name = .error fault) : MayRaise s (.call name args) (.fault fault)
  | argument {name : String} {args : List Expr} {e : Expr} {raised : Raised} (he : e ∈ args)
    (hoperand : e.IsOperand) (h : MayRaise s e raised) : MayRaise s (.call name args) raised
  /-- A member of a range that is an argument may lie outside of the grid. -/
  | member {name : String} {args : List Expr} {r : Range} {i : Nat} (hr : .range r ∈ args)
    (hi : i < r.size) (houtside : ¬(r.member i).IsWithin s.height s.width) :
    MayRaise s (.call name args) (.fault (.outsideGrid (r.member i)))
  | function {name : String} {args : List Expr} {f : Reducer} {vs : List Decimal} {raised : Raised}
    (hf : s.functions.lookup name = .ok f) (h : f vs = .error raised) :
    MayRaise s (.call name args) raised
  | foreign {value : RawValue} : MayRaise s (.foreign value) (.abort (.unknownNode value))

theorem raisesOnly_apply (op : Operator) (left right : Expr) (a b : Decimal) :
    (s.apply op a b).RaisesOnly ((binary op left right).MayRaise s) := by
  cases op with
  | add | sub | mul => trivial
  | unknown symbol => exact .unknownOperator
  | div =>
    refine Program.raisesOnly_ofExcept fun raised h => ?_
    cases hquotient : a.divide b s.scale with
    | ok v =>
      rw [hquotient] at h
      cases h
    | error e =>
      rw [hquotient] at h
      cases h
      exact .quotient hquotient

mutual

/-- The program of an expression raises only what the evaluation of the expression may end with. -/
theorem raisesOnly_program : (e : Expr) → (room : Nat) →
    (e.program s room).RaisesOnly (e.MayRaise s)
  | _, 0 => by
    unfold program
    exact .tooDeep
  | number _, _ + 1 => trivial
  | foreign _, _ + 1 => .foreign
  | range _, _ + 1 => .range
  | cell a, room + 1 => by
    rw [program]
    exact Setting.raisesOnly_request .cell fun v => trivial
  | negate operand, room + 1 => by
    rw [program]
    exact ((raisesOnly_program operand room).imp fun _ => .negate).bind fun v => trivial
  | binary op left right, room + 1 => by
    rw [program]
    exact ((raisesOnly_program left room).imp fun _ => .left).bind fun a =>
      ((raisesOnly_program right room).imp fun _ => .right).bind fun b =>
        raisesOnly_apply op left right a b
  | call name args, room + 1 => by
    rw [program]
    split
    · rename_i fault hfault
      exact .unknownFunction hfault
    · rename_i f hf
      refine (raisesOnly_argumentsProgram args room [] .tooDeep ?_ ?_).bind fun vs =>
        Program.raisesOnly_ofExcept fun raised => .function hf
      · exact fun e he hoperand raised => .argument he hoperand
      · exact fun r hr i hi => .member hr hi

/-- The programs of arguments raise only what their evaluation may end with. -/
theorem raisesOnly_argumentsProgram {P : Raised → Prop} :
    (es : List Expr) → (room : Nat) → (found : List Decimal) → P (.fault .tooDeep) →
      (∀ e ∈ es, e.IsOperand → ∀ raised, e.MayRaise s raised → P raised) →
      (∀ r, .range r ∈ es → ∀ i < r.size, ¬(r.member i).IsWithin s.height s.width →
        P (.fault (.outsideGrid (r.member i)))) →
      (argumentsProgram s room found es).RaisesOnly P
  | [], _, _, _, _, _ => trivial
  | e :: args, room, found, hdeep, hvalues, hmembers => by
    have hargs := fun found => raisesOnly_argumentsProgram args room found hdeep
      (fun e' he' => hvalues e' (List.mem_cons_of_mem e he'))
      fun r hr => hmembers r (List.mem_cons_of_mem e hr)
    have hvalue := fun hoperand =>
      (raisesOnly_program e room).imp (hvalues e List.mem_cons_self hoperand)
    cases e with
    | range r =>
      refine (Setting.raisesOnly_argumentMembers hdeep fun j hj => ?_).bind hargs
      exact hmembers r List.mem_cons_self j hj
    | _ => exact (hvalue trivial).bind fun v => hargs (v :: found)

end

end Expr

/-! ## Formulas -/

/-- Formulas come to such faults where functions refuse at most no values. -/
inductive Fault.IsExpected : Fault → Prop
  | tooDeep : IsExpected .tooDeep
  | outsideGrid (a : Address) : IsExpected (.outsideGrid a)
  | unknownFunction (name : String) : IsExpected (.unknownFunction name)
  | divisionByZero : IsExpected .divisionByZero
  | noValues (name : String) : IsExpected (.noValues name)

theorem Registry.eq_of_lookup_eq_error {r : Registry} {name : String} {fault : Fault}
    (h : r.lookup name = .error fault) : fault = .unknownFunction (Text.upper name) := by
  unfold lookup at h
  cases hfind : r.find? name with
  | none =>
    rw [hfind] at h
    exact (Except.error.inj h).symm
  | some f =>
    rw [hfind] at h
    cases h

theorem Expr.isLegible_of_mem {e : Expr} {es : List Expr} (h : AreLegible es) (he : e ∈ es) :
    e.IsLegible := by
  induction es with
  | nil => cases he
  | cons e' es ih =>
    rcases List.mem_cons.1 he with rfl | he
    · exact h.1
    · exact ih h.2 he

/-- A legible tree raises nothing but expected faults. -/
theorem Expr.MayRaise.isExpected {s : Setting} {e : Expr} {raised : Raised}
    (hfunctions : s.functions.IsTotal) (hscale : 0 ≤ s.scale) (h : e.MayRaise s raised) :
    e.IsOperand → e.IsLegible → ∃ fault, raised = .fault fault ∧ fault.IsExpected := by
  induction h with
  | tooDeep => exact fun _ _ => ⟨_, rfl, .tooDeep⟩
  | @cell a => exact fun _ _ => ⟨_, rfl, .outsideGrid a⟩
  | range => exact fun hoperand _ => hoperand.elim
  | negate _ ih => exact fun _ hlegible => ih hlegible.1 hlegible.2
  | left _ ih => exact fun _ hlegible => ih hlegible.2.1.1 hlegible.2.1.2
  | right _ ih => exact fun _ hlegible => ih hlegible.2.2.1 hlegible.2.2.2
  | @quotient left right a b error h =>
    intro _ _
    cases error with
    | zeroDivisor => exact ⟨_, rfl, .divisionByZero⟩
    | tooLarge => exact absurd h (Calculation.divide_ne_tooLarge hscale)
  | unknownOperator => exact fun _ hlegible => absurd rfl (hlegible.1 _)
  | unknownFunction h =>
    intro _ _
    obtain rfl := Registry.eq_of_lookup_eq_error h
    exact ⟨_, rfl, .unknownFunction _⟩
  | argument he hoperand _ ih =>
    exact fun _ hlegible => ih hoperand (isLegible_of_mem hlegible.2.2 he)
  | member => exact fun _ _ => ⟨_, rfl, .outsideGrid _⟩
  | @function name args f vs raised hf h =>
    intro _ _
    rcases hfunctions name f hf vs with ⟨v, hv⟩ | ⟨-, name', hnone⟩
    · cases hv.symm.trans h
    · cases hnone.symm.trans h
      exact ⟨_, rfl, .noValues name'⟩
  | foreign => exact fun _ hlegible => hlegible.elim

/-- The program of a formula raises nothing but expected faults. -/
theorem Formula.raisesOnly_isExpected {s : Setting} {f : Formula} {e : Expr}
    (hfunctions : s.functions.IsTotal) (hscale : 0 ≤ s.scale) (h : f.tree = .ok e) (room : Nat) :
    (e.program s room).RaisesOnly fun raised =>
      ∃ fault, raised = .fault fault ∧ fault.IsExpected := by
  obtain ⟨hoperand, hlegible, -⟩ := isLegible_of_tree h
  exact (Expr.raisesOnly_program e room).imp fun raised hraised =>
    hraised.isExpected hfunctions hscale hoperand hlegible

end DecimalSheet
