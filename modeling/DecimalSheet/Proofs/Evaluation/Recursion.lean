import DecimalSheet.Evaluation.Program
import DecimalSheet.Proofs.Address.Rectangle
import DecimalSheet.Proofs.Except

/-!
# Evaluation by recursion

What the value of a cell should be: the value of its expression, computed from left to right, where
the value of a cell that the expression mentions is computed in the same way when it comes to it.
Nothing is remembered. What is known of the way down is the path, the cells whose values are being
computed, and a cell that is mentioned again on its own path is a circular reference.

## Main definitions

* `Calculation`: a grid and what its formulas may use
* `Stop`: what comes instead of the value of a cell
* `Expr.valueBy s ask`: the value of an expression, where `ask` gives the values of cells
* `Calculation.valueAlong s path a`: the value of the cell `a` for the cells on `path`

## Main results

* `Expr.valueBy_congr`: only the cells that an expression mentions matter
* `Expr.exists_of_valueBy_eq_ok`: a value needs the values of all cells that are mentioned
-/

namespace DecimalSheet

/-- A grid, and what its formulas may use besides the values of cells. -/
structure Calculation where
  grid : Grid
  functions : Registry
  /-- The places after the point to which quotients are rounded. -/
  scale : Int

/-- What may come instead of the value of a cell. -/
inductive Stop where
  | error (e : CellError)
  | abort (reason : Abort)

namespace Stop

/-- A fault that has just arisen, or the reason why a computation was given up. -/
def ofRaised : Raised → Stop
  | .fault fault => error (.ofFault fault)
  | .abort reason => abort reason

/-- Records the cell in which an error arose, unless one is recorded already. -/
def tag (a : Address) : Stop → Stop
  | error e => error (e.tag a)
  | abort reason => abort reason

end Stop

/-! ## Expressions -/

/-- The result of an operator. -/
def Calculation.apply (s : Calculation) (op : Operator) (a b : Decimal) : Except Stop Decimal :=
  match op with
  | .add => .ok (a.add b)
  | .sub => .ok (a.sub b)
  | .mul => .ok (a.mul b)
  | .div => (a.divide b s.scale).mapError fun e => .ofRaised (.ofQuotientError e)
  | .unknown symbol => .error (.abort (.unknownOperator symbol))

namespace Expr

mutual

/-- The value of an expression, computed from left to right, where `ask` gives the values of
cells. A function is looked up before its arguments are computed. -/
def valueBy (s : Calculation) (ask : Address → Except Stop Decimal) : Expr → Except Stop Decimal
  | number value => .ok value
  | cell a => ask a
  | range r => .error (.ofRaised (.fault (.rangeAsValue r.text none)))
  | negate operand => do
    let a ← operand.valueBy s ask
    return a.neg
  | binary op left right => do
    let a ← left.valueBy s ask
    let b ← right.valueBy s ask
    s.apply op a b
  | call name args =>
    match s.functions.lookup name with
    | .error fault => .error (.ofRaised (.fault fault))
    | .ok f => do
      let values ← argumentValuesBy s ask args
      (f values).mapError .ofRaised
  | foreign value => .error (.abort (.unknownNode value))

/-- The values of the arguments of a function. A range stands for its members. -/
def argumentValuesBy (s : Calculation) (ask : Address → Except Stop Decimal) :
    List Expr → Except Stop (List Decimal)
  | [] => .ok []
  | range r :: args => do
    let values ← r.members.mapM ask
    let others ← argumentValuesBy s ask args
    return values ++ others
  | e :: args => do
    let value ← e.valueBy s ask
    let others ← argumentValuesBy s ask args
    return value :: others

end

/-- The cells that an expression mentions, by themselves or in ranges. -/
def mentions (e : Expr) : List Address := e.references.flatMap Reference.members

/-- The cells that the arguments of a function mention. -/
def mentionsAll (es : List Expr) : List Address := (referencesAll es).flatMap Reference.members

@[simp] theorem mentions_number (value : Decimal) : (number value).mentions = [] := rfl

@[simp] theorem mentions_cell (a : Address) : (cell a).mentions = [a] := rfl

@[simp] theorem mentions_range (r : Range) : (range r).mentions = r.members := by
  simp [mentions, references, Reference.members, Reference.rows, Range.members]

@[simp] theorem mentions_negate (e : Expr) : (negate e).mentions = e.mentions := by
  simp [mentions, references]

@[simp] theorem mentions_binary (op : Operator) (left right : Expr) :
    (binary op left right).mentions = left.mentions ++ right.mentions := by
  simp [mentions, references]

@[simp] theorem mentions_call (name : String) (args : List Expr) :
    (call name args).mentions = mentionsAll args := by
  simp [mentions, mentionsAll, references]

@[simp] theorem mentionsAll_cons (e : Expr) (es : List Expr) :
    mentionsAll (e :: es) = e.mentions ++ mentionsAll es := by
  simp [mentions, mentionsAll, referencesAll]

variable {s : Calculation} {ask ask' : Address → Except Stop Decimal}

theorem mapM_congr {as : List Address} (h : ∀ a ∈ as, ask a = ask' a) :
    as.mapM ask = as.mapM ask' := by
  induction as with
  | nil => rfl
  | cons a as ih =>
    obtain ⟨ha, has⟩ := List.forall_mem_cons.1 h
    rw [List.mapM_cons, List.mapM_cons, ha, ih has]

mutual

/-- The value of an expression depends only on the cells that it mentions. -/
theorem valueBy_congr :
    (e : Expr) → (∀ a ∈ e.mentions, ask a = ask' a) → e.valueBy s ask = e.valueBy s ask'
  | number _, _ | range _, _ | foreign _, _ => rfl
  | cell a, h => h a (by simp)
  | negate operand, h => by
    have hoperand := valueBy_congr operand (by simpa using h)
    simp only [valueBy, hoperand]
  | binary op left right, h => by
    have hleft := valueBy_congr left fun a ha => h a (by simp [ha])
    have hright := valueBy_congr right fun a ha => h a (by simp [ha])
    simp only [valueBy, hleft, hright]
  | call name args, h => by
    have hargs := argumentValuesBy_congr args (by simpa using h)
    simp only [valueBy, hargs]

theorem argumentValuesBy_congr :
    (es : List Expr) → (∀ a ∈ mentionsAll es, ask a = ask' a) →
      argumentValuesBy s ask es = argumentValuesBy s ask' es
  | [], _ => rfl
  | e :: args, h => by
    have hvalue := valueBy_congr e fun a ha => h a (by simp [ha])
    have hargs := argumentValuesBy_congr args fun a ha => h a (by simp [ha])
    cases e with
    | range r =>
      -- a range stands for its members and not for a value
      have hmembers : r.members.mapM ask = r.members.mapM ask' :=
        mapM_congr fun a ha => h a (by simp [ha])
      simp only [argumentValuesBy, hmembers, hargs]
    | _ => simp only [argumentValuesBy, hvalue, hargs]

end

theorem exists_of_mapM_eq_ok {as : List Address} {vs : List Decimal} (h : as.mapM ask = .ok vs) :
    ∀ a ∈ as, ∃ v, ask a = .ok v := by
  induction as generalizing vs with
  | nil => simp
  | cons a as ih =>
    rw [List.mapM_cons] at h
    obtain ⟨v, hv, hrest⟩ := exists_of_bind_eq_ok h
    obtain ⟨ws, hws, -⟩ := exists_of_bind_eq_ok hrest
    exact List.forall_mem_cons.2 ⟨⟨v, hv⟩, ih hws⟩

mutual

/-- An expression has a value only if all cells that it mentions have values. -/
theorem exists_of_valueBy_eq_ok :
    (e : Expr) → (v : Decimal) → e.valueBy s ask = .ok v → ∀ a ∈ e.mentions, ∃ w, ask a = .ok w
  | number _, _, _ => by simp [mentions, references]
  | range _, _, h | foreign _, _, h => by cases h
  | cell a, v, h => by
    rw [mentions_cell]
    exact List.forall_mem_singleton.2 ⟨v, h⟩
  | negate operand, v, h => by
    rw [valueBy] at h
    obtain ⟨w, hw, -⟩ := exists_of_bind_eq_ok h
    rw [mentions_negate]
    exact exists_of_valueBy_eq_ok operand w hw
  | binary op left right, v, h => by
    rw [valueBy] at h
    obtain ⟨x, hx, hrest⟩ := exists_of_bind_eq_ok h
    obtain ⟨y, hy, -⟩ := exists_of_bind_eq_ok hrest
    rw [mentions_binary]
    exact List.forall_mem_append.2
      ⟨exists_of_valueBy_eq_ok left x hx, exists_of_valueBy_eq_ok right y hy⟩
  | call name args, v, h => by
    rw [valueBy] at h
    split at h
    · cases h
    · obtain ⟨vs, hvs, -⟩ := exists_of_bind_eq_ok h
      rw [mentions_call]
      exact exists_of_argumentValuesBy_eq_ok args vs hvs

theorem exists_of_argumentValuesBy_eq_ok :
    (es : List Expr) → (vs : List Decimal) → argumentValuesBy s ask es = .ok vs →
      ∀ a ∈ mentionsAll es, ∃ w, ask a = .ok w
  | [], _, _ => by simp [mentionsAll, referencesAll]
  | e :: args, vs, h => by
    have hvalue := exists_of_valueBy_eq_ok e
    have hargs := exists_of_argumentValuesBy_eq_ok args
    rw [mentionsAll_cons, List.forall_mem_append]
    cases e with
    | range r =>
      -- the members are asked for one by one
      rw [argumentValuesBy] at h
      obtain ⟨ws, hws, hrest⟩ := exists_of_bind_eq_ok h
      obtain ⟨others, hothers, -⟩ := exists_of_bind_eq_ok hrest
      rw [mentions_range]
      exact ⟨exists_of_mapM_eq_ok hws, hargs others hothers⟩
    | _ =>
      simp only [argumentValuesBy] at h
      obtain ⟨w, hw, hrest⟩ := exists_of_bind_eq_ok h
      obtain ⟨others, hothers, -⟩ := exists_of_bind_eq_ok hrest
      exact ⟨hvalue w hw, hargs others hothers⟩

end

end Expr

/-! ## Cells -/

/-- The tree by which a cell is evaluated, if it holds a formula. -/
def Cell.tree? (c : Cell) : Option Expr :=
  match c.content with
  | .formula _ tree _ => some tree
  | _ => none

namespace Calculation

variable (s : Calculation)

/-- What formulas may use. -/
def setting : Setting := ⟨s.grid.height, s.grid.width, s.functions, s.scale⟩

@[simp] theorem setting_functions : s.setting.functions = s.functions := rfl

@[simp] theorem setting_scale : s.setting.scale = s.scale := rfl

/-- The tree by which the cell at an address is evaluated, if it holds a formula. -/
def tree? (a : Address) : Option Expr := (s.grid.cell? a).bind Cell.tree?

/-- The formula of a cell mentions another cell. -/
def RefersTo (a b : Address) : Prop := ∃ tree, s.tree? a = some tree ∧ b ∈ tree.mentions

/-- The cycle that a cell closes with the cells on a path that have been begun since its own
beginning, the last of them first. -/
def loop (path : List Address) (a : Address) : List Address := a :: path.takeWhile (· != a)

theorem length_filter_lt {g : Grid} {path : List Address} {a : Address} (ha : g.Contains a)
    (hpath : a ∉ path) :
    (g.addresses.filter (· ∉ a :: path)).length < (g.addresses.filter (· ∉ path)).length := by
  -- One address less is left, and `a` is the one.
  have hfilter : g.addresses.filter (· ∉ a :: path) =
      (g.addresses.filter (· ∉ path)).filter (· != a) := by
    rw [List.filter_filter]
    refine List.filter_congr fun b _ => ?_
    by_cases hb : b = a <;> simp [hb]
  rw [hfilter, List.length_filter_lt_length_iff_exists]
  exact ⟨a, by simp [ha, hpath], by simp⟩

/-- The value of a cell for the cells on a path, each of which waits for the one before it. A
fault that arises in the cell becomes an error of it, and the errors of other cells go through. -/
def valueAlong (path : List Address) (a : Address) : Except Stop Decimal :=
  match _hcell : s.grid.cell? a with
  | none => .error (.error (.ofFault (.outsideGrid a)))
  | some c =>
    if _hpath : a ∈ path then .error (.error (.ofFault (.circular a (loop path a))))
    else
      match c.content with
      | .literal value => .ok value
      | .unreadable _ fault => .error (.error ((CellError.ofFault fault).tag a))
      | .formula _ tree _ =>
        (tree.valueBy s fun b => valueAlong (a :: path) b).mapError (Stop.tag a)
termination_by (s.grid.addresses.filter (· ∉ path)).length
decreasing_by exact length_filter_lt (Grid.contains_of_cell? _hcell) _hpath

end Calculation

end DecimalSheet
