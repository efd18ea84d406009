import DecimalSheet.Evaluation.Bound
import DecimalSheet.Proofs.Evaluation.Recursion
import DecimalSheet.Proofs.Formula.Proper
import DecimalSheet.Proofs.Function.NeverAborts

/-!
# Programs of expressions

The program of an expression computes the value of the expression, asks only for cells that the
expression mentions and that lie inside of the grid, asks not more often than the bound on its
requests allows, and is not given up where nothing that it uses gives up.

## Main definitions

* `Calculation.NeverAborts`: nothing that formulas use gives up
* `Program.resultBy ask`: the result of a program, where `ask` gives the values of cells
* `Program.Behaves P safe n`: a program asks at most `n` times, for cells with the property `P`

## Main results

* `Expr.resultBy_program`: the program of an expression computes its value
* `Expr.behaves_program`: the requests of the program of an expression
-/

namespace DecimalSheet

/-- Nothing that formulas use gives up. -/
structure Calculation.NeverAborts (s : Calculation) : Prop where
  functions : s.functions.NeverAborts
  scale : 0 ≤ s.scale

namespace Program

variable {α β : Type} {P Q : Address → Prop} {safe : Prop} {ask : Address → Except Stop Decimal}

/-! ## Results -/

/-- The result of a program, where `ask` gives the values of cells. -/
def resultBy (ask : Address → Except Stop Decimal) : Program α → Except Stop α
  | done value => .ok value
  | raise raised => .error (.ofRaised raised)
  | .ask a next => ask a >>= fun v => (next v).resultBy ask

theorem resultBy_bind (p : Program α) (f : α → Program β) :
    (p >>= f).resultBy ask = p.resultBy ask >>= fun v => (f v).resultBy ask := by
  induction p with
  | done | raise => rfl
  | ask a next ih =>
    rw [ask_bind, resultBy, resultBy]
    cases ask a with
    | error e => rfl
    | ok v => exact ih v

theorem resultBy_ofExcept (x : Except Raised α) :
    (ofExcept x).resultBy ask = x.mapError .ofRaised := by
  cases x <;> rfl

/-! ## Requests -/

/-- The program asks at most `n` times, each time for a cell with the property `P`, and it is given
up only if it is not `safe`. -/
def Behaves (P : Address → Prop) (safe : Prop) (n : Nat) (p : Program α) : Prop :=
  match p with
  | done _ | raise (.fault _) => True
  | raise (.abort _) => ¬safe
  | .ask a next => 0 < n ∧ P a ∧ ∀ v, (next v).Behaves P safe (n - 1)

theorem Behaves.mono {m n : Nat} (hmn : m ≤ n) (hPQ : ∀ a, P a → Q a) {p : Program α}
    (h : p.Behaves P safe m) : p.Behaves Q safe n := by
  induction p generalizing m n with
  | done => trivial
  | raise raised => cases raised <;> exact h
  | ask a next ih =>
    obtain ⟨hpos, ha, hnext⟩ := h
    exact ⟨Nat.lt_of_lt_of_le hpos hmn, hPQ a ha,
      fun v => ih v (Nat.sub_le_sub_right hmn 1) (hnext v)⟩

theorem Behaves.imp {n : Nat} (hPQ : ∀ a, P a → Q a) {p : Program α}
    (h : p.Behaves P safe n) : p.Behaves Q safe n :=
  h.mono (Nat.le_refl n) hPQ

theorem Behaves.bind {m n : Nat} {p : Program α} {f : α → Program β} (h : p.Behaves P safe m)
    (hf : ∀ v, (f v).Behaves P safe n) : (p >>= f).Behaves P safe (m + n) := by
  induction p generalizing m with
  | done value => exact (hf value).mono (Nat.le_add_left n m) fun _ => id
  | raise raised => cases raised <;> exact h
  | ask a next ih =>
    -- The request is one of the first `m`, so `m - 1` and then `n` are left.
    obtain ⟨hpos, ha, hnext⟩ := h
    refine ⟨Nat.add_pos_left hpos n, ha, fun v => ?_⟩
    rw [Nat.sub_add_comm hpos]
    exact ih v (hnext v)

theorem behaves_ofExcept {x : Except Raised α} (h : safe → ∀ reason, x ≠ .error (.abort reason)) :
    (ofExcept x).Behaves P safe 0 := by
  rcases x with (fault | reason) | value
  · trivial
  · exact fun hsafe => h hsafe reason rfl
  · trivial

end Program

namespace Calculation

variable {α : Type} {s : Calculation} {ask : Address → Except Stop Decimal}

theorem resultBy_request
    (hask : ∀ a, ¬s.grid.Contains a → ask a = .error (.error (.ofFault (.outsideGrid a))))
    (a : Address) (next : Decimal → Program α) :
    (s.setting.request a next).resultBy ask = ask a >>= fun v => (next v).resultBy ask := by
  unfold Setting.request
  split
  · rfl
  · -- outside of the grid there is an error without a request
    rename_i hout
    rw [hask a hout]
    rfl

theorem resultBy_members
    (hask : ∀ a, ¬s.grid.Contains a → ask a = .error (.error (.ofFault (.outsideGrid a))))
    (r : Range) (i : Nat) (found : List Decimal) (count : Nat) :
    (s.setting.members r i found count).resultBy ask =
      (((List.range' i count).map r.member).mapM ask).map fun vs => vs.reverse ++ found := by
  -- Induction on the members to come, for any that have been found.
  induction count generalizing i found with
  | zero => rfl
  | succ count ih =>
    rw [Setting.members, resultBy_request hask, List.range'_succ, List.map_cons, List.mapM_cons]
    cases ask (r.member i) with
    | error e => rfl
    | ok v =>
      refine (ih (i + 1) (v :: found)).trans ?_
      cases ((List.range' (i + 1) count).map r.member).mapM ask with
      | error e => simp [Except.map, bind, Except.bind]
      | ok vs => simp [Except.map, bind, Except.bind, pure, Except.pure]

theorem resultBy_apply (op : Operator) (a b : Decimal) :
    (s.setting.apply op a b).resultBy ask = s.apply op a b := by
  cases op with
  | div =>
    rw [Setting.apply, Program.resultBy_ofExcept, Calculation.apply, setting_scale]
    cases a.divide b s.scale <;> rfl
  | _ => rfl

end Calculation

/-! ## Expressions -/

namespace Expr

variable {s : Calculation} {ask : Address → Except Stop Decimal}

mutual

/-- The program of an expression that is not too high computes its value. -/
theorem resultBy_program
    (hask : ∀ a, ¬s.grid.Contains a → ask a = .error (.error (.ofFault (.outsideGrid a)))) :
    (e : Expr) → (room : Nat) → e.height ≤ room →
      (e.program s.setting room).resultBy ask = e.valueBy s ask
  -- No tree fits into no room.
  | e, 0, h => by cases e <;> simp [height] at h
  | number _, _ + 1, _ | range _, _ + 1, _ | foreign _, _ + 1, _ => rfl
  | cell a, room + 1, _ => by
    rw [program, Calculation.resultBy_request hask, valueBy]
    cases ask a <;> rfl
  | negate operand, room + 1, h => by
    rw [height] at h
    rw [program, valueBy, Program.resultBy_bind, resultBy_program hask operand room (by omega)]
    rfl
  | binary op left right, room + 1, h => by
    rw [height] at h
    simp only [program, valueBy, Program.resultBy_bind, Calculation.resultBy_apply,
      resultBy_program hask left room (by omega), resultBy_program hask right room (by omega)]
  | call name args, room + 1, h => by
    rw [height] at h
    have hargs := resultBy_argumentsProgram hask args room [] (by omega)
    rw [program, valueBy, Calculation.setting_functions]
    cases s.functions.lookup name with
    | error fault => rfl
    | ok f =>
      simp only [Program.resultBy_bind, hargs, Program.resultBy_ofExcept]
      cases argumentValuesBy s ask args with
      | error e => rfl
      | ok vs => simp [Except.map, bind, Except.bind]

theorem resultBy_argumentsProgram
    (hask : ∀ a, ¬s.grid.Contains a → ask a = .error (.error (.ofFault (.outsideGrid a)))) :
    (es : List Expr) → (room : Nat) → (found : List Decimal) → heightAll es ≤ room →
      (argumentsProgram s.setting room found es).resultBy ask =
        (argumentValuesBy s ask es).map fun vs => vs.reverse ++ found
  | [], _, _, _ => rfl
  | e :: args, room, found, h => by
    rw [heightAll] at h
    have hvalue := resultBy_program hask e room (by omega)
    have hargs := fun found => resultBy_argumentsProgram hask args room found (by omega)
    cases e with
    | range r =>
      -- The members come before the other arguments on both sides.
      have hroom : room ≠ 0 := by
        simp only [height] at h
        omega
      rw [argumentsProgram, argumentValuesBy, Program.resultBy_bind, Setting.argumentMembers,
        if_neg hroom, Calculation.resultBy_members hask, Range.members_eq_map,
        List.range_eq_range']
      simp only [hargs]
      cases ((List.range' 0 r.size).map r.member).mapM ask with
      | error e => rfl
      | ok vs =>
        cases argumentValuesBy s ask args with
        | error e => rfl
        | ok ws => simp [Except.map, bind, Except.bind, pure, Except.pure]
    | _ =>
      simp only [argumentsProgram, argumentValuesBy, Program.resultBy_bind, hvalue, hargs]
      cases valueBy s ask _ with
      | error e => rfl
      | ok v =>
        cases argumentValuesBy s ask args with
        | error e => rfl
        | ok ws => simp [Except.map, bind, Except.bind, pure, Except.pure]

end

end Expr

namespace Calculation

variable {α : Type} {s : Calculation} {P : Address → Prop} {n : Nat}

/-- The request for a cell counts only if the cell lies inside of the grid. -/
theorem behaves_request {safe : Prop} {a : Address} {next : Decimal → Program α} (ha : P a)
    (h : s.grid.Contains a →
      0 < n ∧ ∀ v, (next v).Behaves (fun b => P b ∧ s.grid.Contains b) safe (n - 1)) :
    (s.setting.request a next).Behaves (fun b => P b ∧ s.grid.Contains b) safe n := by
  unfold Setting.request
  split
  · rename_i hcontains
    exact ⟨(h hcontains).1, ⟨ha, hcontains⟩, (h hcontains).2⟩
  · trivial

/-- The members of a range are asked for up to the first one that lies outside of the grid. -/
theorem behaves_members {safe : Prop} {r : Range} {i : Nat} {found : List Decimal} {count : Nat}
    (hP : ∀ j < count, P (r.member (i + j)))
    (hn : ∀ k ≤ count, (∀ j < k, s.grid.Contains (r.member (i + j))) → k ≤ n) :
    (s.setting.members r i found count).Behaves (fun b => P b ∧ s.grid.Contains b) safe n := by
  induction count generalizing i found n with
  | zero => trivial
  | succ count ih =>
    refine behaves_request (hP 0 (Nat.succ_pos count)) fun hcontains => ⟨?_, fun v => ?_⟩
    -- The first member lies inside of the grid, so there is at least one request to make ...
    · refine hn 1 (by omega) fun j hj => ?_
      rwa [Nat.lt_one_iff.1 hj]
    -- ... and `k` members inside of the grid behind it are `k + 1` from it on.
    · refine ih (fun j hj => ?_) fun k hk hrun => ?_
      · have hmember := hP (j + 1) (by omega)
        rwa [Nat.add_comm j 1, ← Nat.add_assoc] at hmember
      · have hlonger := hn (k + 1) (by omega) fun j hj => ?_
        · omega
        · cases j with
          | zero => exact hcontains
          | succ j =>
            have hmember := hrun j (by omega)
            rwa [Nat.add_assoc, Nat.add_comm 1 j] at hmember

theorem behaves_range {safe : Prop} {room : Nat} {r : Range} {found : List Decimal} :
    (s.setting.argumentMembers room r found).Behaves
      (fun b => b ∈ r.members ∧ s.grid.Contains b) safe (min r.size s.grid.size) := by
  unfold Setting.argumentMembers
  split
  · trivial
  refine behaves_members (fun j hj => ?_) fun k hk hrun => Nat.le_min.2 ⟨hk, ?_⟩
  · rw [Range.members_eq_map, Nat.zero_add]
    exact List.mem_map_of_mem (List.mem_range.2 hj)
  · -- The members are distinct, so the grid has no more of them than it has cells.
    have hcontains : ∀ a ∈ (List.range k).map r.member, s.grid.Contains a := by simpa using hrun
    simpa using Grid.length_le_size (List.nodup_range.map r.member_injective) hcontains

theorem divide_ne_tooLarge {a b : Decimal} {scale : Int} (h : 0 ≤ scale) :
    a.divide b scale ≠ .error .tooLarge := by
  obtain ⟨places, rfl⟩ := Int.eq_ofNat_of_zero_le h
  by_cases hb : b.IsZero
  · simp [Decimal.divide, hb]
  · simp [Decimal.divide_natCast hb]

theorem behaves_apply {op : Operator} (hop : ∀ symbol, op ≠ .unknown symbol) (a b : Decimal) :
    (s.setting.apply op a b).Behaves P s.NeverAborts 0 := by
  cases op with
  | add | sub | mul => trivial
  | div =>
    -- Only a quotient that is too large gives up, and only at a scale below zero.
    refine Program.behaves_ofExcept fun hsafe reason h => ?_
    rw [setting_scale] at h
    cases hdiv : a.divide b s.scale with
    | ok v => simp [hdiv, Except.mapError] at h
    | error e =>
      cases e with
      | zeroDivisor => simp [hdiv, Except.mapError, Raised.ofQuotientError] at h
      | tooLarge => exact divide_ne_tooLarge hsafe.scale hdiv
  | unknown symbol => exact absurd rfl (hop symbol)

end Calculation

namespace Expr

variable {s : Calculation}

mutual

/-- The program of an expression asks for mentioned cells inside of the grid, and not more often
than the bound on its requests says. -/
theorem behaves_program : (e : Expr) → (room : Nat) → e.IsProper →
    (e.program s.setting room).Behaves (fun b => b ∈ e.mentions ∧ s.grid.Contains b) s.NeverAborts
      (e.requestBound s.grid.size)
  | _, 0, _ | number _, _ + 1, _ | range _, _ + 1, _ => by unfold program; trivial
  | foreign _, _ + 1, h => h.elim
  | cell a, room + 1, _ => by
    rw [program]
    exact Calculation.behaves_request (by simp) fun _ => ⟨Nat.succ_pos _, fun v => trivial⟩
  | negate operand, room + 1, h => by
    rw [program, requestBound]
    have hoperand := behaves_program operand room h
    rw [← mentions_negate] at hoperand
    exact hoperand.bind (n := 0) fun a => trivial
  | binary op left right, room + 1, h => by
    obtain ⟨hop, hproper, hproper'⟩ := h
    have hleft := (behaves_program left room hproper).imp (Q := fun b =>
      b ∈ (binary op left right).mentions ∧ s.grid.Contains b) fun b hb => ⟨by simp [hb.1], hb.2⟩
    have hright := (behaves_program right room hproper').imp (Q := fun b =>
      b ∈ (binary op left right).mentions ∧ s.grid.Contains b) fun b hb => ⟨by simp [hb.1], hb.2⟩
    rw [program, requestBound]
    exact hleft.bind fun a => hright.bind (n := 0) fun b => Calculation.behaves_apply hop a b
  | call name args, room + 1, h => by
    have hargs := behaves_argumentsProgram args room [] h
    rw [← mentions_call name] at hargs
    rw [program, requestBound]
    split
    · trivial
    · -- the function itself asks for nothing
      rename_i f hf
      exact hargs.bind (n := 0) fun vs =>
        Program.behaves_ofExcept fun hsafe reason => hsafe.functions name f hf _ reason

theorem behaves_argumentsProgram :
    (es : List Expr) → (room : Nat) → (found : List Decimal) → AreProper es →
      (argumentsProgram s.setting room found es).Behaves
        (fun b => b ∈ mentionsAll es ∧ s.grid.Contains b) s.NeverAborts
        (argumentsBound s.grid.size es)
  | [], _, _, _ => trivial
  | e :: args, room, found, h => by
    obtain ⟨he, hrest⟩ := h
    have hvalue := (behaves_program e room he).imp (Q := fun b =>
      b ∈ mentionsAll (e :: args) ∧ s.grid.Contains b) fun b hb => ⟨by simp [hb.1], hb.2⟩
    have hargs := fun found => (behaves_argumentsProgram args room found hrest).imp (Q := fun b =>
      b ∈ mentionsAll (e :: args) ∧ s.grid.Contains b) fun b hb => ⟨by simp [hb.1], hb.2⟩
    cases e with
    | range r =>
      have hmembers : (s.setting.argumentMembers room r found).Behaves
          (fun b => b ∈ mentionsAll (range r :: args) ∧ s.grid.Contains b) s.NeverAborts _ :=
        Calculation.behaves_range.imp fun b hb => ⟨by simp [hb.1], hb.2⟩
      rw [argumentsProgram, argumentsBound]
      exact hmembers.bind hargs
    | _ =>
      simp only [argumentsProgram, argumentsBound]
      exact hvalue.bind fun v => hargs (v :: found)

end

end Expr

end DecimalSheet
