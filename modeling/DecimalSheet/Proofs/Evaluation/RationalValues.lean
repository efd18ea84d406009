import DecimalSheet.Proofs.Evaluation.Lockstep
import DecimalSheet.Proofs.Evaluation.Stack
import DecimalSheet.Proofs.Function.Exact

/-!
# Formulas over the rational numbers

A formula that uses the standard functions is a formula over the rational numbers: its operators and
functions are those of rational numbers, except that quotients and means are rounded. When it comes
to a decimal number, this stands for the value over the rational numbers. So the forms of the
numbers do not matter: a formula has the same requests and the same faults whatever forms the
numbers have that it is given, and whatever forms the numbers have that are written in it.

## Main definitions

* `Operator.onRationals`: what an operator makes of rational numbers
* `Expr.rational? places value e`: the value of an expression over the rational numbers
* `Setting.IsExact places s`: the standard functions are used, and quotients have so many places

## Main results

* `Expr.rest_division`: a division fails exactly if the divisor is zero
* `Expr.rational?_of_rest`: the result of a program is the value over the rational numbers
* `Expr.alike_program`: the programs of expressions that differ in the forms of numbers
-/

namespace DecimalSheet

/-! ## Rational values -/

/-- What an operator makes of rational numbers. A quotient is rounded to places after the point. -/
def Operator.onRationals (places : Nat) (op : Operator) (x y : ℚ) : Except Raised ℚ :=
  match op with
  | .add => .ok (x + y)
  | .sub => .ok (x - y)
  | .mul => .ok (x * y)
  | .div => if y = 0 then .error (.fault .divisionByZero) else .ok (roundTo places (x / y))
  | .unknown symbol => .error (.abort (.unknownOperator symbol))

namespace Expr

mutual

/-- The value of an expression over the rational numbers, where `value` gives the values of cells.
The standard functions are used, and quotients are rounded to places after the point. -/
def rational? (places : Nat) (value : Address → Option ℚ) : Expr → Option ℚ
  | number d => some d.toRat
  | cell a => value a
  | negate operand => do
    let x ← operand.rational? places value
    some (-x)
  | binary op left right => do
    let x ← left.rational? places value
    let y ← right.rational? places value
    (op.onRationals places x y).toOption
  | call name args => do
    let xs ← argumentRationals? places value args
    (standardOn (Text.lower name) xs).toOption
  | range _ | foreign _ => none

/-- The values of the arguments of a function. A range stands for its members. -/
def argumentRationals? (places : Nat) (value : Address → Option ℚ) : List Expr → Option (List ℚ)
  | [] => some []
  | range r :: args => do
    let xs ← r.members.mapM value
    let ys ← argumentRationals? places value args
    some (xs ++ ys)
  | e :: args => do
    let x ← e.rational? places value
    let ys ← argumentRationals? places value args
    some (x :: ys)

end

end Expr

/-- The standard functions are used, and quotients are rounded to places after the point. -/
structure Setting.IsExact (places : Nat) (s : Setting) : Prop where
  functions_eq : s.functions = .standard
  scale_eq : s.scale = places

variable {places : Nat} {s : Setting} {known : Address → Option Decimal}

/-- The rational numbers for which the known numbers of cells stand. -/
def rationals (known : Address → Option Decimal) (a : Address) : Option ℚ :=
  (known a).map Decimal.toRat

/-! ## Results of programs -/

namespace Program

variable {α β : Type} {p : Program α}

/-- A program that comes to a result has come to one in each of its parts. -/
theorem exists_of_rest_bind {f : α → Program β} {y : β} (h : (p >>= f).rest known = .done y) :
    ∃ x, p.rest known = .done x ∧ (f x).rest known = .done y := by
  induction p with
  | done x => exact ⟨x, rfl, h⟩
  | raise raised => cases h
  | ask a next ih =>
    rw [ask_bind] at h
    cases hknown : known a with
    | none =>
      rw [rest_ask_of_eq_none hknown] at h
      cases h
    | some v =>
      rw [rest_ask_of_eq_some hknown] at h ⊢
      exact ih v h

theorem rest_bind_of_eq_done {f : α → Program β} {x : α} (h : p.rest known = .done x) :
    (p >>= f).rest known = (f x).rest known := by
  induction p with
  | done y =>
    rw [done.inj h]
    rfl
  | raise raised => cases h
  | ask a next ih =>
    rw [ask_bind]
    cases hknown : known a with
    | none =>
      rw [rest_ask_of_eq_none hknown] at h
      cases h
    | some v =>
      rw [rest_ask_of_eq_some hknown] at h ⊢
      exact ih v h

theorem eq_ok_of_rest_ofExcept {x : Except Raised α} {v : α}
    (h : (ofExcept x).rest known = .done v) : x = .ok v := by
  cases x with
  | error raised => cases h
  | ok w => rw [show w = v from done.inj h]

theorem exists_of_rest_request {a : Address} {next : Decimal → Program α} {v : α}
    (h : (s.request a next).rest known = .done v) :
    ∃ w, known a = some w ∧ (next w).rest known = .done v := by
  unfold Setting.request at h
  split at h
  · cases hknown : known a with
    | none =>
      rw [rest_ask_of_eq_none hknown] at h
      cases h
    | some w =>
      rw [rest_ask_of_eq_some hknown] at h
      exact ⟨w, rfl, h⟩
  · cases h

/-- The numbers of the members of a range, of which the last comes first. -/
theorem exists_of_rest_members {r : Range} {i count : Nat} {found vs : List Decimal}
    (h : (s.members r i found count).rest known = .done vs) :
    ∃ ws : List Decimal, ((List.range' i count).map r.member).mapM (rationals known) =
      some (ws.map Decimal.toRat) ∧ vs = ws.reverse ++ found := by
  induction count generalizing i found with
  | zero => exact ⟨[], rfl, (done.inj h).symm⟩
  | succ count ih =>
    obtain ⟨w, hknown, h⟩ := exists_of_rest_request h
    obtain ⟨ws, hws, rfl⟩ := ih h
    refine ⟨w :: ws, ?_, by simp⟩
    have hw : rationals known (r.member i) = some w.toRat := by rw [rationals, hknown]; rfl
    rw [List.range'_succ, List.map_cons, List.mapM_cons, hw, hws]
    rfl

theorem exists_of_rest_argumentMembers {room : Nat} {r : Range} {found vs : List Decimal}
    (h : (s.argumentMembers room r found).rest known = .done vs) :
    ∃ ws : List Decimal, r.members.mapM (rationals known) = some (ws.map Decimal.toRat) ∧
      vs = ws.reverse ++ found := by
  unfold Setting.argumentMembers at h
  split at h
  · cases h
  · rw [Range.members_eq_map, List.range_eq_range']
    exact exists_of_rest_members h

end Program

/-- Operators are operators of rational numbers. -/
theorem Setting.IsExact.exists_apply (hs : s.IsExact places) (op : Operator) (a b : Decimal) :
    ∃ x, s.apply op a b = .ofExcept x ∧
      x.map Decimal.toRat = op.onRationals places a.toRat b.toRat := by
  cases op with
  | add => exact ⟨.ok (a.add b), rfl, congrArg Except.ok (Decimal.toRat_add a b)⟩
  | sub => exact ⟨.ok (a.sub b), rfl, congrArg Except.ok (Decimal.toRat_sub a b)⟩
  | mul => exact ⟨.ok (a.mul b), rfl, congrArg Except.ok (Decimal.toRat_mul a b)⟩
  | div =>
    refine ⟨_, rfl, ?_⟩
    rw [hs.scale_eq, Operator.onRationals]
    by_cases hb : b.IsZero
    · rw [if_pos (Decimal.isZero_iff_toRat.1 hb), Decimal.divide_eq_zeroDivisor_iff.2 hb]
      rfl
    · rw [if_neg (mt Decimal.isZero_iff_toRat.2 hb), Decimal.divide_natCast hb]
      exact congrArg Except.ok (Decimal.toRat_quotient hb places)
  | unknown symbol => exact ⟨.error _, rfl, rfl⟩

namespace Expr

/-- A division whose operands have come to numbers fails exactly if the divisor is zero. -/
theorem rest_division (hs : s.IsExact places) {left right : Expr} {room : Nat} {a b : Decimal}
    (ha : (left.program s room).rest known = .done a)
    (hb : (right.program s room).rest known = .done b) :
    ((binary .div left right).program s (room + 1)).rest known =
      .raise (.fault .divisionByZero) ↔ b.toRat = 0 := by
  obtain ⟨x, hx, hrational⟩ := hs.exists_apply .div a b
  rw [program, Program.rest_bind_of_eq_done ha, Program.rest_bind_of_eq_done hb, hx]
  rw [Operator.onRationals] at hrational
  split at hrational
  · rename_i hzero
    rw [eq_error_of_map_eq_error hrational]
    exact iff_of_true rfl hzero
  · rename_i hzero
    obtain ⟨v, rfl, -⟩ := exists_of_map_eq_ok hrational
    exact iff_of_false (by rintro ⟨⟩) hzero

mutual

/-- When the program of an expression comes to a number, this stands for the value of the expression
over the rational numbers. -/
theorem rational?_of_rest (hs : s.IsExact places) : (e : Expr) → (room : Nat) → (v : Decimal) →
    (e.program s room).rest known = .done v → e.rational? places (rationals known) = some v.toRat
  | e, 0, v, h => by
    unfold program at h
    cases h
  | number d, _ + 1, v, h => by
    unfold program at h
    rw [rational?, Program.done.inj h]
  | cell a, _ + 1, v, h => by
    rw [program] at h
    obtain ⟨w, hknown, hw⟩ := Program.exists_of_rest_request h
    rw [rational?, rationals, hknown, Program.done.inj hw]
    rfl
  | negate operand, room + 1, v, h => by
    rw [program] at h
    obtain ⟨a, ha, hv⟩ := Program.exists_of_rest_bind h
    rw [rational?, rational?_of_rest hs operand room a ha, ← Program.done.inj hv,
      Decimal.toRat_neg]
    rfl
  | binary op left right, room + 1, v, h => by
    rw [program] at h
    obtain ⟨a, ha, h⟩ := Program.exists_of_rest_bind h
    obtain ⟨b, hb, h⟩ := Program.exists_of_rest_bind h
    obtain ⟨x, hx, hrational⟩ := hs.exists_apply op a b
    rw [hx] at h
    rw [Program.eq_ok_of_rest_ofExcept h] at hrational
    rw [rational?, rational?_of_rest hs left room a ha, rational?_of_rest hs right room b hb]
    exact congrArg Except.toOption hrational.symm
  | call name args, room + 1, v, h => by
    rw [program] at h
    split at h
    · cases h
    · rename_i f hf
      rw [hs.functions_eq] at hf
      obtain ⟨vs, hvs, h⟩ := Program.exists_of_rest_bind h
      obtain ⟨ws, hws, hrational⟩ := argumentRationals?_of_rest hs args room [] vs hvs
      have hfound : f ws = .ok v := by
        have hv := Program.eq_ok_of_rest_ofExcept h
        rwa [hws, List.append_nil, List.reverse_reverse] at hv
      rw [rational?, hrational]
      exact congrArg Except.toOption ((Registry.computes_standard name f hf).eq_of_ok hfound)
  | range _, _ + 1, v, h | foreign _, _ + 1, v, h => by
    unfold program at h
    cases h

theorem argumentRationals?_of_rest (hs : s.IsExact places) : (es : List Expr) → (room : Nat) →
    (found vs : List Decimal) → (argumentsProgram s room found es).rest known = .done vs →
      ∃ ws : List Decimal, vs = ws.reverse ++ found ∧
        argumentRationals? places (rationals known) es = some (ws.map Decimal.toRat)
  | [], _, found, vs, h => ⟨[], (Program.done.inj h).symm, rfl⟩
  | e :: args, room, found, vs, h => by
    have hvalue := rational?_of_rest hs e room
    have hargs := argumentRationals?_of_rest hs args room
    cases e with
    | range r =>
      rw [argumentsProgram] at h
      obtain ⟨us, hus, h⟩ := Program.exists_of_rest_bind h
      obtain ⟨xs, hxs, rfl⟩ := Program.exists_of_rest_argumentMembers hus
      obtain ⟨ws, rfl, hws⟩ := hargs _ _ h
      refine ⟨xs ++ ws, by simp, ?_⟩
      rw [argumentRationals?, hxs, hws]
      simp
    | _ =>
      simp only [argumentsProgram] at h
      obtain ⟨u, hu, h⟩ := Program.exists_of_rest_bind h
      obtain ⟨ws, rfl, hws⟩ := hargs _ _ h
      refine ⟨u :: ws, by simp, ?_⟩
      simp only [argumentRationals?]
      rw [hvalue u hu, hws]
      rfl

end

end Expr

/-! ## The forms of numbers -/

theorem Matches.of_map_toRat {ε : Type} {x y : Except ε Decimal}
    (h : x.map Decimal.toRat = y.map Decimal.toRat) : Matches Decimal.SameValue x y := by
  cases x with
  | error e =>
    cases y with
    | error e' =>
      obtain rfl : e = e' := Except.error.inj h
      exact .error e
    | ok w => cases h
  | ok v =>
    cases y with
    | error e' => cases h
    | ok w => exact .ok (Decimal.sameValue_iff_toRat.2 (Except.ok.inj h))

theorem map_toRat_eq {vs ws : List Decimal} (h : List.Forall₂ Decimal.SameValue vs ws) :
    vs.map Decimal.toRat = ws.map Decimal.toRat := by
  induction h with
  | nil => rfl
  | cons hvw _ ih => rw [List.map_cons, List.map_cons, Decimal.sameValue_iff_toRat.1 hvw, ih]

/-- The standard functions do not tell the forms of numbers apart. -/
theorem Reducer.Computes.matches {f : Reducer} {g : List ℚ → Except Raised ℚ} (h : f.Computes g)
    {vs ws : List Decimal} (hvs : List.Forall₂ Decimal.SameValue vs ws) :
    Matches Decimal.SameValue (f vs) (f ws) :=
  .of_map_toRat (by rw [h vs, h ws, map_toRat_eq hvs])

variable {P : Address → Prop}

namespace Program

variable {α β : Type} {V : Decimal → Decimal → Prop} {R : α → β → Prop}

theorem alike_request (hP : ∀ a, P a) {a : Address} {next : Decimal → Program α}
    {next' : Decimal → Program β} (h : ∀ v w, V v w → (next v).Alike V P R (next' w)) :
    (s.request a next).Alike V P R (s.request a next') := by
  unfold Setting.request
  split
  · exact .ask (hP a) h
  · exact .raise _

theorem alike_members (hP : ∀ a, P a) {r : Range} (i count : Nat) {found found' : List Decimal}
    (h : List.Forall₂ V found found') :
    (s.members r i found count).Alike V P (List.Forall₂ V) (s.members r i found' count) := by
  induction count generalizing i found found' with
  | zero => exact .done h
  | succ count ih => exact alike_request hP fun v w hvw => ih (i + 1) (.cons hvw h)

theorem alike_argumentMembers (hP : ∀ a, P a) (room : Nat) {r : Range}
    {found found' : List Decimal} (h : List.Forall₂ V found found') :
    (s.argumentMembers room r found).Alike V P (List.Forall₂ V)
      (s.argumentMembers room r found') := by
  unfold Setting.argumentMembers
  split
  · exact .raise _
  · exact alike_members hP 0 r.size h

theorem alike_apply (hs : s.IsExact places) (op : Operator) {a b a' b' : Decimal}
    (ha : a.SameValue a') (hb : b.SameValue b') :
    (s.apply op a b).Alike Decimal.SameValue P Decimal.SameValue (s.apply op a' b') := by
  obtain ⟨x, hx, hrational⟩ := hs.exists_apply op a b
  obtain ⟨x', hx', hrational'⟩ := hs.exists_apply op a' b'
  rw [hx, hx']
  refine alike_ofExcept (.of_map_toRat ?_)
  rw [hrational, hrational', Decimal.sameValue_iff_toRat.1 ha, Decimal.sameValue_iff_toRat.1 hb]

end Program

namespace Expr

variable {e e' : Expr} {r : Range}

theorem eq_range_of_same (h : (range r).same e' = true) : e' = range r := by
  cases e' with
  | range r' => rw [show r = r' from beq_iff_eq.1 h]
  | _ => cases h

theorem eq_range_of_same' (h : e.same (range r) = true) : e = range r := by
  cases e with
  | range r' => rw [show r' = r from beq_iff_eq.1 h]
  | _ => cases h

mutual

/-- Expressions that differ only in the forms of numbers have programs that differ only in the
forms of numbers. -/
theorem alike_program (hs : s.IsExact places) (hP : ∀ a, P a) : (e e' : Expr) → (room : Nat) →
    e.IsProper → e.same e' = true →
      (e.program s room).Alike Decimal.SameValue P Decimal.SameValue (e'.program s room)
  | _, _, 0, _, _ => by
    unfold program
    exact .raise _
  | number a, number b, _ + 1, _, h => by
    unfold program
    exact .done (of_decide_eq_true h)
  | cell a, cell b, _ + 1, _, h => by
    obtain rfl : a = b := beq_iff_eq.1 h
    unfold program
    exact Program.alike_request hP fun v w hvw => .done hvw
  | range r, range r', _ + 1, _, h => by
    obtain rfl : r = r' := beq_iff_eq.1 h
    unfold program
    exact .raise _
  | negate operand, negate operand', room + 1, hproper, h => by
    rw [program, program]
    refine (alike_program hs hP operand operand' room hproper h).bind fun a b hab => .done ?_
    rw [Decimal.sameValue_iff_toRat] at hab ⊢
    rw [Decimal.toRat_neg, Decimal.toRat_neg, hab]
  | binary op left right, binary op' left' right', room + 1, hproper, h => by
    simp only [same, Bool.and_eq_true, beq_iff_eq] at h
    obtain ⟨⟨rfl, hleft⟩, hright⟩ := h
    rw [program, program]
    refine (alike_program hs hP left left' room hproper.2.1 hleft).bind fun a a' ha => ?_
    refine (alike_program hs hP right right' room hproper.2.2 hright).bind fun b b' hb => ?_
    exact Program.alike_apply hs op ha hb
  | call name args, call name' args', room + 1, hproper, h => by
    simp only [same, Bool.and_eq_true, beq_iff_eq] at h
    obtain ⟨rfl, hargs⟩ := h
    rw [program, program]
    split
    · exact .raise _
    · rename_i f hf
      rw [hs.functions_eq] at hf
      refine (alike_argumentsProgram hs hP args args' room hproper hargs [] [] .nil).bind
        fun vs ws hvs => Program.alike_ofExcept ?_
      exact (Registry.computes_standard name f hf).matches (List.rel_reverse hvs)

theorem alike_argumentsProgram (hs : s.IsExact places) (hP : ∀ a, P a) : (es es' : List Expr) →
    (room : Nat) → AreProper es → sameAll es es' = true → (found found' : List Decimal) →
      List.Forall₂ Decimal.SameValue found found' →
        (argumentsProgram s room found es).Alike Decimal.SameValue P
          (List.Forall₂ Decimal.SameValue) (argumentsProgram s room found' es')
  | [], [], _, _, _, _, _, hfound => .done hfound
  | e :: args, e' :: args', room, hproper, h, found, found', hfound => by
    simp only [sameAll, Bool.and_eq_true] at h
    obtain ⟨hsame, hrest⟩ := h
    have hvalue := alike_program hs hP e e' room hproper.1 hsame
    have hargs := alike_argumentsProgram hs hP args args' room hproper.2 hrest
    by_cases he : ∃ r, e = range r
    · obtain ⟨r, rfl⟩ := he
      obtain rfl := eq_range_of_same hsame
      rw [argumentsProgram, argumentsProgram]
      exact (Program.alike_argumentMembers hP room hfound).bind hargs
    · have he' : ¬∃ r, e' = range r := by
        rintro ⟨r, rfl⟩
        exact he ⟨r, eq_range_of_same' hsame⟩
      rw [argumentsProgram_cons he, argumentsProgram_cons he']
      exact hvalue.bind fun v w hvw => hargs _ _ (.cons hvw hfound)

end

mutual

/-- An expression is the same as itself. -/
theorem same_self : (e : Expr) → e.IsProper → e.same e = true
  | number _, _ => decide_eq_true rfl
  | cell _, _ | range _, _ => beq_self_eq_true _
  | negate operand, h => same_self operand h
  | binary op left right, h => by
    rw [same, same_self left h.2.1, same_self right h.2.2, beq_self_eq_true]
    rfl
  | call name args, h => by
    rw [same, sameAll_self args h, beq_self_eq_true]
    rfl

theorem sameAll_self : (es : List Expr) → AreProper es → sameAll es es = true
  | [], _ => rfl
  | e :: es, h => by
    rw [sameAll, same_self e h.1, sameAll_self es h.2]
    rfl

end

end Expr

/-! ## Cells -/

/-- The contents are literals with the same value, or formulas whose trees are the same, up to the
forms of numbers. -/
inductive Content.Agrees : Content → Content → Prop
  | literal {v w : Decimal} (h : v.SameValue w) : Agrees (literal v) (literal w)
  | formula {f f' : Formula} {tree tree' : Expr} {references references' : Option (List Reference)}
    (h : tree.same tree' = true) :
    Agrees (formula f tree references) (formula f' tree' references')

namespace Content

variable {content content' : Content}

theorem Agrees.alike (hs : s.IsExact places) (hP : ∀ a, P a)
    (hproper : ∀ f tree references, content = .formula f tree references → tree.IsProper)
    (h : content.Agrees content') : Content.Alike Decimal.SameValue P s s content content' := by
  cases h with
  | literal h => exact .literal h
  | formula h => exact .formula (Expr.alike_program hs hP _ _ _ (hproper _ _ _ rfl) h)

theorem alike_self (hs : s.IsExact places) (hP : ∀ a, P a)
    (hproper : ∀ f tree references, content = .formula f tree references → tree.IsProper) :
    Content.Alike Decimal.SameValue P s s content content := by
  cases content with
  | literal v => exact .literal rfl
  | formula f tree references =>
    exact (Agrees.formula (Expr.same_self tree (hproper _ _ _ rfl))).alike hs hP hproper
  | unreadable formula fault => exact .unreadable

end Content

/-- The value of a cell over the rational numbers, where `value` gives the values of other cells. -/
def Content.rational? (places : Nat) (value : Address → Option ℚ) : Content → Option ℚ
  | literal v => some v.toRat
  | formula _ tree _ => tree.rational? places value
  | unreadable .. => none

namespace Calculation

variable {grid grid' : Grid} {table table' : RawValue} {marker marker' : Option String}

theorem isExact_setting (grid : Grid) (places : Nat) :
    (Calculation.setting ⟨grid, .standard, places⟩).IsExact places :=
  ⟨rfl, rfl⟩

/-- Grids of the same size in which cells agree, or are built from the same values, are alike. -/
theorem alike_of_agrees (hgrid : Grid.ofRaw table marker = .ok grid)
    (hgrid' : Grid.ofRaw table' marker' = .ok grid') (hheight : grid'.height = grid.height)
    (hwidth : grid'.width = grid.width)
    (hcells : ∀ a cell cell', grid.cell? a = some cell → grid'.cell? a = some cell' →
      cell.content.Agrees cell'.content ∨ marker' = marker ∧ cell'.source = cell.source) :
    Calculation.Alike Decimal.SameValue (fun _ => True) ⟨grid, .standard, places⟩
      ⟨grid', .standard, places⟩ where
  height_eq := hheight
  width_eq := hwidth
  cell a _ := by
    have hs := isExact_setting grid places
    refine Grid.rel_cell? hheight hwidth fun cell cell' hcell hcell' => ?_
    have hproper : ∀ f tree references, cell.content = .formula f tree references →
        tree.IsProper :=
      fun f tree references hcontent =>
        Formula.isProper_of_tree (Grid.tree_of_ofRaw hgrid hcell hcontent)
    rw [setting_eq_of_size (s := ⟨grid, .standard, places⟩) hheight hwidth]
    rcases hcells a cell cell' hcell hcell' with hagrees | ⟨rfl, hsource⟩
    · exact hagrees.alike hs (fun _ => trivial) hproper
    · rw [Grid.cell_eq_of_source hgrid hgrid' hcell hcell' hsource]
      exact Content.alike_self hs (fun _ => trivial) hproper

end Calculation

end DecimalSheet
