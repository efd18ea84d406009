import DecimalSheet.Proofs.Evaluation.RangeArguments
import DecimalSheet.Proofs.Evaluation.Room
import DecimalSheet.Proofs.Evaluation.Unread
import DecimalSheet.Proofs.Formula.RoundTrip
import DecimalSheet.Proofs.Function.NeverAborts

/-!
# Means as quotients

The mean of some values is their sum divided by their number. The same is true of formulas: a cell
with the call of the function for the mean and a cell with the quotient of the calls of the two
other functions come to the same number, with the same digits, and fail with the same failure where
an argument fails. Where there are no values, both of them fail, one since the function is refused
and the other one since it divides by zero.

The quotient evaluates its arguments twice, but the second time all of them are known. Its arguments
lie one level deeper than those of the call for the mean, so there are arguments for which the mean
has a value and the quotient is too high: those of which the quotient is one level higher than
formulas may be.

## Main definitions

* `Expr.mean args`, `Expr.sumByCount args`: the call for the mean, and the quotient
* `Evaluator.argumentValues ev c args`: the values of the arguments in the formula of a cell
* `Evaluator.MeanOf c x o`: what the mean of some values may come to in a cell
* `Grid.SameBut c g g'`: two grids of one size differ at most in the value of one cell

## Main results

* `Evaluator.exists_follow_mean`, `Evaluator.exists_follow_sumByCount`: both formulas come to the
  mean of the values of their arguments
* `Evaluator.evaluate_mean_eq_sumByCount`: they come to the same in the cell of a grid
* `Evaluator.evaluate_sumByCount_ones`: not so if only the quotient is too high
-/

namespace DecimalSheet

/-! ## Numbers -/

theorem Decimal.ofNat_add_one (n : Nat) : (ofNat n).add one = ofNat (n + 1) := by
  have hunits : (n : Int) + 1 ≠ 0 := by omega
  have habs : ((n : Int) + 1).natAbs = n + 1 := by omega
  have hsign : ¬(n : Int) + 1 < 0 := by omega
  simp [add, ofUnits, unitsAt, commonExponent, signed, one, ofNat, hunits, habs, hsign]

namespace Aggregate

variable {vs : List Decimal} {d : Decimal}

theorem divide_of_average? (h : average? vs = some d) :
    (sum vs).divide (count vs) divisionScale = .ok d := by
  unfold average? at h
  cases hquotient : (sum vs).divide (count vs) divisionScale with
  | error e =>
    rw [hquotient] at h
    cases h
  | ok v =>
    rw [hquotient] at h
    rw [Option.some.inj h]

/-- The function for the mean is refused on no values. -/
theorem run_average_nil :
    GridFunction.average.run.guarded "average" [] =
      .error (.fault (.noValues (Text.upper "average"))) := if_pos rfl

theorem run_average_of_some (h : average? vs = some d) :
    GridFunction.average.run.guarded "average" vs = .ok d := by
  have hne : vs ≠ [] := by
    rintro rfl
    cases h
  rw [Reducer.guarded, if_neg hne]
  show (average? vs).elim _ _ = _
  rw [h]
  rfl

end Aggregate

namespace Registry

theorem lookup_standard_sum : standard.lookup "sum" = .ok GridFunction.sum.run := rfl

theorem lookup_standard_count : standard.lookup "count" = .ok GridFunction.count.run := rfl

theorem lookup_standard_average :
    standard.lookup "average" = .ok (GridFunction.average.run.guarded "average") := rfl

end Registry

/-! ## Formulas -/

namespace Expr

open Program

/-- The mean of the arguments, by a function of its own. -/
def mean (args : List Expr) : Expr := call "average" args

/-- The sum of the arguments divided by their number. -/
def sumByCount (args : List Expr) : Expr := binary .div (call "sum" args) (call "count" args)

/-- How high the arguments of a function may be. -/
def argumentRoom : Nat := maxHeight - 1

/-- How high the arguments of a function may be whose call is an operand. -/
def operandRoom : Nat := maxHeight - 2

variable {s : Setting} {room : Nat} {args : List Expr}

theorem isShallow_sumByCount_iff : (sumByCount args).IsShallow ↔ heightAll args ≤ operandRoom := by
  simp only [IsShallow, sumByCount, height, operandRoom, maxHeight]
  omega

/-- The arguments do the same in the quotient as in the call for the mean, if the quotient is not
too high. -/
theorem argumentsProgram_of_isShallow (h : (sumByCount args).IsShallow) :
    argumentsProgram s argumentRoom [] args = argumentsProgram s operandRoom [] args :=
  argumentsProgram_succ args operandRoom [] (isShallow_sumByCount_iff.1 h)

theorem program_call {name : String} {f : Reducer} (hf : s.functions.lookup name = .ok f) :
    (call name args).program s (room + 1) =
      argumentsProgram s room [] args >>= fun found => .ofExcept (f found.reverse) := by
  simp only [program, hf]

theorem program_mean (hs : s.functions = .standard) :
    (mean args).program s (room + 1) = argumentsProgram s room [] args >>= fun found =>
      .ofExcept (GridFunction.average.run.guarded "average" found.reverse) :=
  program_call (hs ▸ Registry.lookup_standard_average)

/-- The arguments are evaluated once for their sum and once for their number. -/
theorem program_sumByCount (hs : s.functions = .standard) :
    (sumByCount args).program s (room + 2) = argumentsProgram s room [] args >>= fun found =>
      argumentsProgram s room [] args >>= fun found' =>
        s.apply .div (Aggregate.sum found.reverse) (Aggregate.count found'.reverse) := by
  rw [sumByCount, program, program_call (hs ▸ Registry.lookup_standard_sum),
    program_call (hs ▸ Registry.lookup_standard_count)]
  simp only [bind_assoc]
  rfl

end Expr

namespace Evaluator

open DecimalSheet.Expr (mean sumByCount argumentsProgram)

variable {ev ev' : Evaluator} {c : Address} {s : Setting} {room : Nat} {args : List Expr}
  {found : List Decimal} {failure : Failure} {x : Except Failure (List Decimal)} {o : Outcome}

/-- What the mean of some values may come to in a cell, if they have been found. -/
inductive MeanOf (c : Address) : Except Failure (List Decimal) → Outcome → Prop
  | value {vs : List Decimal} {d : Decimal} (h : Aggregate.average? vs = some d) :
    MeanOf c (.ok vs) (.ok d)
  | noValues {f : Failure} (horigin : f.origin = c) (hcode : f.fault.code = .division) :
    MeanOf c (.ok []) (.error f)
  | failed (f : Failure) : MeanOf c (.error f) (.error f)

theorem MeanOf.exists_of_cons {v : Decimal} {vs : List Decimal} (h : MeanOf c (.ok (v :: vs)) o) :
    ∃ d, Aggregate.average? (v :: vs) = some d ∧ o = .ok d := by
  cases h with
  | value h => exact ⟨_, h, rfl⟩

theorem MeanOf.exists_of_nil (h : MeanOf c (.ok []) o) :
    ∃ f, o = .error f ∧ f.origin = c ∧ f.fault.code = .division := by
  cases h with
  | value h => cases h
  | noValues horigin hcode => exact ⟨_, rfl, horigin, hcode⟩

theorem MeanOf.eq_of_error (h : MeanOf c (.error failure) o) : o = .error failure := by
  cases h with
  | failed => rfl

/-- A program that goes on with the values of arguments comes to their mean if it fails on no values
and comes to the mean of the others. -/
theorem exists_follow_meanOf {p : Program (List Decimal)} {f : List Decimal → Program Decimal}
    (h : (ev.follow c p).2 = .ok x)
    (hnil : x = .ok [] → ∃ failure, ((ev.follow c p).1.follow c (f [])).2 = .ok (.error failure) ∧
      failure.origin = c ∧ failure.fault.code = .division)
    (hvalue : ∀ found d, x = .ok found → Aggregate.average? found.reverse = some d →
      ((ev.follow c p).1.follow c (f found)).2 = .ok (.ok d)) :
    ∃ o, (ev.follow c (p >>= f)).2 = .ok o ∧ MeanOf c (x.map List.reverse) o := by
  have hp : ev.follow c p = ((ev.follow c p).1, .ok x) := Prod.ext rfl h
  cases x with
  | error failure =>
    rw [follow_bind_of_failure hp]
    exact ⟨_, rfl, .failed failure⟩
  | ok found =>
    rw [follow_bind_of_value hp]
    cases hd : Aggregate.average? found.reverse with
    | none =>
      obtain rfl : found = [] := List.reverse_eq_nil_iff.1 (Aggregate.average?_eq_none_iff.1 hd)
      obtain ⟨failure, hfollow, horigin, hcode⟩ := hnil rfl
      exact ⟨_, hfollow, .noValues horigin hcode⟩
    | some d => exact ⟨_, hvalue found d rfl hd, .value hd⟩

/-- The call for the mean comes to the mean of the values of its arguments. -/
theorem exists_follow_mean (hs : s.functions = .standard)
    (h : (ev.follow c (argumentsProgram s room [] args)).2 = .ok x) :
    ∃ o, (ev.follow c ((mean args).program s (room + 1))).2 = .ok o ∧
      MeanOf c (x.map List.reverse) o := by
  rw [Expr.program_mean hs]
  apply exists_follow_meanOf h
  · intro _
    rw [List.reverse_nil, Aggregate.run_average_nil]
    exact ⟨_, rfl, rfl, rfl⟩
  · intro found d _ hd
    rw [Aggregate.run_average_of_some hd]
    rfl

/-- The quotient of no values fails. -/
theorem follow_div_nil (ev : Evaluator) (c : Address) (hscale : s.scale = divisionScale) :
    (ev.follow c (s.apply .div (Aggregate.sum []) (Aggregate.count []))).2 =
      .ok (.error (ev.nextFailure .divisionByZero c)) := by
  rw [Setting.apply, hscale]
  rfl

theorem follow_div_of_average? (ev : Evaluator) (c : Address) (hscale : s.scale = divisionScale)
    {vs : List Decimal} {d : Decimal} (h : Aggregate.average? vs = some d) :
    (ev.follow c (s.apply .div (Aggregate.sum vs) (Aggregate.count vs))).2 = .ok (.ok d) := by
  rw [Setting.apply, hscale, Aggregate.divide_of_average? h]
  rfl

/-- So does the quotient, if the values of the arguments are kept when they have been found. -/
theorem exists_follow_sumByCount (hs : s.functions = .standard) (hscale : s.scale = divisionScale)
    (h : (ev.follow c (argumentsProgram s room [] args)).2 = .ok x)
    (hkept : ∀ found, x = .ok found → (argumentsProgram s room [] args).rest
      (ev.follow c (argumentsProgram s room [] args)).1.number? = .done found) :
    ∃ o, (ev.follow c ((sumByCount args).program s (room + 2))).2 = .ok o ∧
      MeanOf c (x.map List.reverse) o := by
  rw [Expr.program_sumByCount hs]
  -- Both times the same values are found, the second time without evaluating anything.
  apply exists_follow_meanOf h
  · intro hx
    obtain ⟨ev', hagain⟩ := exists_follow_of_rest (c := c) (hkept [] hx)
    rw [follow_bind_of_value hagain]
    exact ⟨_, follow_div_nil ev' c hscale, rfl, rfl⟩
  · intro found d hx hd
    obtain ⟨ev', hagain⟩ := exists_follow_of_rest (c := c) (hkept found hx)
    rw [follow_bind_of_value hagain]
    exact follow_div_of_average? ev' c hscale hd

end Evaluator

/-! ## Fresh evaluators -/

/-- The grids are of the same size and are built from the same values, apart from one cell. -/
structure Grid.SameBut (c : Address) (g g' : Grid) : Prop where
  height_eq : g'.height = g.height
  width_eq : g'.width = g.width
  source_eq : ∀ a, a ≠ c → (g'.cell? a).map Cell.source = (g.cell? a).map Cell.source

namespace Evaluator

open DecimalSheet.Expr (mean sumByCount argumentsProgram argumentRoom operandRoom)

variable {c : Address} {s : Calculation} {tree : Expr} {args : List Expr}

/-- The values of the arguments of a function, asked for one after the other by the formula of a
cell, which is the call of the function. -/
def argumentValues (ev : Evaluator) (c : Address) (args : List Expr) :
    Except Abort (Except Failure (List Decimal)) :=
  ((ev.begin c "").follow c (argumentsProgram ev.setting argumentRoom [] args)).2.map
    (Except.map List.reverse)

/-- A formula that is evaluated at first is followed from the start. -/
theorem evaluate_start (htree : s.tree? c = some tree) :
    ∃ source, ((start s.grid s.functions s.scale).evaluate c).2 =
      (((start s.grid s.functions s.scale).begin c source).follow c
        (tree.program s.setting Expr.maxHeight)).2.mapError .abort := by
  obtain ⟨cell, f, references, hcell, hcontent⟩ := Calculation.tree?_eq_some_iff.1 htree
  have hnew : (start s.grid s.functions s.scale).status[c]? = none := by simp [start]
  refine ⟨f.source, ?_⟩
  rw [evaluate_of_contains (Calculation.contains_of_tree? htree),
    compute_of_formula hnew hcell hcontent, keeping_snd]
  rfl

/-- The formula of a cell has begun, and the cell stays behind. -/
theorem isOrderly_begin (s : Calculation) (c : Address) (source : String) :
    (Moment.idle ((start s.grid s.functions s.scale).begin c source)).IsOrderly s (· = c) := by
  refine ⟨rfl, List.nodup_nil, List.forall_mem_nil _, fun a => ?_⟩
  simp [begin, note, start, Calculation.getElem?_insert]

/-- Two grids that are the same but for one cell, whose formula has begun. -/
theorem agreesBut_begin {g g' : Grid} (hheight : g'.height = g.height) (hwidth : g'.width = g.width)
    (hcell : ∀ a, a ≠ c → g'.cell? a = g.cell? a) (functions : Registry) (scale : Int)
    (source source' : String) :
    ((start g functions scale).begin c source).AgreesBut c
      ((start g' functions scale).begin c source') where
  height_eq := hheight
  width_eq := hwidth
  cell?_eq := hcell
  functions_eq := rfl
  scale_eq := rfl
  status_eq := rfl
  dependencies_eq := rfl
  failureCount_eq := rfl
  inProgress := by simp [begin, note]

/-- What the cell holds, and what is told of it, is of no importance for the values of arguments. -/
theorem argumentValues_start {g g' : Grid} (hheight : g'.height = g.height)
    (hwidth : g'.width = g.width) (hcell : ∀ a, a ≠ c → g'.cell? a = g.cell? a)
    (functions : Registry) (scale : Int) (source : String) :
    (start g functions scale).argumentValues c args =
      (((start g' functions scale).begin c source).follow c
        (argumentsProgram (start g' functions scale).setting argumentRoom [] args)).2.map
          (Except.map List.reverse) := by
  have hagrees := agreesBut_begin hheight hwidth hcell functions scale "" source
  have hsetting : (start g' functions scale).setting = (start g functions scale).setting :=
    hagrees.setting_eq
  rw [hsetting, (hagrees.follow _).result_eq, argumentValues]

/-- The cell with the call for the mean comes to the mean of the values of the arguments. -/
theorem exists_evaluate_mean (hfunctions : s.functions = .standard)
    (htree : s.tree? c = some (mean args)) {x : Except Failure (List Decimal)}
    (hx : (start s.grid s.functions s.scale).argumentValues c args = .ok x) :
    ∃ o, ((start s.grid s.functions s.scale).evaluate c).2 = .ok o ∧ MeanOf c x o := by
  obtain ⟨source, hevaluate⟩ := evaluate_start htree
  rw [argumentValues_start rfl rfl (fun _ _ => rfl) s.functions s.scale source] at hx
  obtain ⟨y, hy, rfl⟩ := exists_of_map_eq_ok hx
  obtain ⟨o, ho, hmean⟩ := exists_follow_mean hfunctions hy
  exact ⟨o, hevaluate.trans (mapError_eq_ok_iff.2 ho), hmean⟩

/-- So does the cell with the quotient, if it is not too high. -/
theorem exists_evaluate_sumByCount {table : RawValue} {marker : Option String}
    (hgrid : Grid.ofRaw table marker = .ok s.grid) (hfunctions : s.functions = .standard)
    (hscale : s.scale = divisionScale) (htree : s.tree? c = some (sumByCount args))
    (hshallow : (sumByCount args).IsShallow) :
    ∃ x o, (start s.grid s.functions s.scale).argumentValues c args = .ok x ∧
      ((start s.grid s.functions s.scale).evaluate c).2 = .ok o ∧ MeanOf c x o := by
  have hsafe : s.NeverAborts := by
    refine ⟨hfunctions ▸ Registry.neverAborts_standard, ?_⟩
    rw [hscale]
    decide
  have hargs : Expr.AreProper args := (Calculation.isProper_of_ofRaw hgrid c _ htree).2.1
  obtain ⟨source, hevaluate⟩ := evaluate_start htree
  rw [argumentValues_start rfl rfl (fun _ _ => rfl) s.functions s.scale source, hevaluate,
    Expr.argumentsProgram_of_isShallow hshallow]
  -- The values of the arguments are kept, so they are found again.
  obtain ⟨ev', x, hfollow, -, -, hkept⟩ := (isOrderly_begin s c source).exists_follow (c := c) hgrid
    hsafe (Expr.behaves_argumentsProgram args operandRoom [] hargs)
  obtain ⟨o, ho, hmean⟩ := exists_follow_sumByCount hfunctions hscale (congrArg Prod.snd hfollow)
    (by rw [hfollow]; exact hkept)
  refine ⟨x.map List.reverse, o, ?_, mapError_eq_ok_iff.2 ho, hmean⟩
  have hx := congrArg Prod.snd hfollow
  exact congrArg (Except.map (Except.map List.reverse)) hx

/-- The mean and the quotient come to the same in a cell, as long as the quotient is not too high.
If the arguments have at least one value, then both formulas come to the mean of the values. If
there are no values, then both fail in the cell itself. If an argument fails, then both fail with
its failure. -/
theorem evaluate_mean_eq_sumByCount {table table' : RawValue} {marker : Option String} {g g' : Grid}
    (hgrid : Grid.ofRaw table marker = .ok g) (hgrid' : Grid.ofRaw table' marker = .ok g')
    (hsame : g.SameBut c g') (hmean : (g.cell? c).bind Cell.tree? = some (mean args))
    (hquotient : (g'.cell? c).bind Cell.tree? = some (sumByCount args))
    (hshallow : (sumByCount args).IsShallow) :
    let ev := start g .standard divisionScale
    let ev' := start g' .standard divisionScale
    (∃ v vs d, ev.argumentValues c args = .ok (.ok (v :: vs)) ∧
      Aggregate.average? (v :: vs) = some d ∧
      (ev.evaluate c).2 = .ok (.ok d) ∧ (ev'.evaluate c).2 = .ok (.ok d)) ∨
    (∃ f f', ev.argumentValues c args = .ok (.ok []) ∧
      (ev.evaluate c).2 = .ok (.error f) ∧ (ev'.evaluate c).2 = .ok (.error f') ∧
      f.origin = c ∧ f'.origin = c ∧ f.fault.code = .division ∧ f'.fault.code = .division) ∨
    ∃ f, ev.argumentValues c args = .ok (.error f) ∧
      (ev.evaluate c).2 = .ok (.error f) ∧ (ev'.evaluate c).2 = .ok (.error f) := by
  intro ev ev'
  have hcell := fun a ha => Grid.cell?_eq_of_source hgrid hgrid' (hsame.source_eq a ha)
  obtain ⟨x, o', hx', ho', hmean'⟩ := exists_evaluate_sumByCount
    (s := ⟨g', .standard, divisionScale⟩) hgrid' rfl rfl hquotient hshallow
  have hx : ev.argumentValues c args = .ok x := by
    rw [← hx', argumentValues_start hsame.height_eq hsame.width_eq hcell _ _ ""]
    rfl
  obtain ⟨o, ho, hmean⟩ :=
    exists_evaluate_mean (s := ⟨g, .standard, divisionScale⟩) rfl hmean hx
  match x with
  | .ok (v :: vs) =>
    obtain ⟨d, hd, rfl⟩ := hmean.exists_of_cons
    obtain ⟨d', hd', rfl⟩ := hmean'.exists_of_cons
    obtain rfl : d = d' := Option.some.inj (hd.symm.trans hd')
    exact .inl ⟨v, vs, d, hx, hd, ho, ho'⟩
  | .ok [] =>
    obtain ⟨f, rfl, horigin, hcode⟩ := hmean.exists_of_nil
    obtain ⟨f', rfl, horigin', hcode'⟩ := hmean'.exists_of_nil
    exact .inr (.inl ⟨f, f', hx, ho, ho', horigin, horigin', hcode, hcode'⟩)
  | .error f =>
    obtain rfl := hmean.eq_of_error
    obtain rfl := hmean'.eq_of_error
    exact .inr (.inr ⟨f, hx, ho, ho'⟩)

end Evaluator

/-! ## The mean of two numbers -/

namespace Grid

/-- The table of a number and a formula beside it. -/
def besideOneTable (text : String) : RawValue :=
  .sequence .square [.sequence .square [.text "1", .text text]]

/-- The grid of the table `besideOneTable` for a formula with the given tree. -/
def besideOne (text : String) (tree : Expr) : Grid := ⟨1, 2, #v[#v[
  ⟨⟨0, 0⟩, .text "1", .literal .one⟩,
  ⟨⟨0, 1⟩, .text text, .formula ⟨text, some "="⟩ tree none⟩]]⟩

theorem ofRaw_besideOneTable {text : String} {tree : Expr}
    (hmarked : Formula.isMarked (some "=") text = true)
    (htree : (⟨text, some "="⟩ : Formula).tree = .ok tree) :
    ofRaw (besideOneTable text) (some "=") = .ok (besideOne text tree) := by
  have hone : Content.ofRaw (.text "1") (some "=") = .literal .one :=
    Content.ofRaw_eq_literal rfl (by decide)
  rw [besideOne, ← Content.ofRaw_eq_formula hmarked htree, ← hone]
  rfl

theorem sameBut_besideOne (text text' : String) (tree tree' : Expr) :
    (besideOne text tree).SameBut ⟨0, 1⟩ (besideOne text' tree') where
  height_eq := rfl
  width_eq := rfl
  source_eq a ha := by
    by_cases hcontains : (besideOne text tree).Contains a
    · obtain ⟨row, col⟩ := a
      obtain ⟨hrow, hcol⟩ := hcontains
      obtain rfl : row = 0 := Nat.lt_one_iff.1 hrow
      replace hcol : col < 2 := hcol
      obtain rfl | rfl : col = 0 ∨ col = 1 := by omega
      · rfl
      · exact absurd rfl ha
    · have hnone : (besideOne text tree).cell? a = none := by
        rwa [← Option.not_isSome_iff_eq_none, isSome_cell?]
      have hnone' : (besideOne text' tree').cell? a = none := by
        rwa [← Option.not_isSome_iff_eq_none, isSome_cell?]
      rw [hnone, hnone']

/-- A cell and a number as arguments. -/
theorem isArguments_oneTwo :
    IsArguments 0 [.reference "A1", .comma, .number (.ofNat 2)]
      [.cell ⟨0, 0⟩, .number (.ofNat 2)] := by
  have hcell : IsArgument 0 [.reference "A1"] (.cell ⟨0, 0⟩) :=
    .sum (.product (.factor (.atom (.cell rfl))))
  have hnumber : IsArgument 0 [.number (.ofNat 2)] (.number (.ofNat 2)) :=
    .sum (.product (.factor (.atom .number)))
  exact .more hcell (.last hnumber)

theorem tree_meanOfTwo :
    (⟨"=AVERAGE(A1,2)", some "="⟩ : Formula).tree =
      .ok (.mean [.cell ⟨0, 0⟩, .number (.ofNat 2)]) := by
  have hts : (⟨"=AVERAGE(A1,2)", some "="⟩ : Formula).tokens =
      .ok [⟨.name "AVERAGE", 0⟩, ⟨.opening, 7⟩, ⟨.reference "A1", 8⟩, ⟨.comma, 10⟩,
        ⟨.number (.ofNat 2), 11⟩, ⟨.closing, 12⟩] := by cbv
  have hcall : IsAtom _ (.name "AVERAGE" :: .opening :: _ ++ [.closing]) (.call "average" _) :=
    .call (by decide) isArguments_oneTwo
  exact (Formula.tree_eq_ok_iff hts).2
    (parse_eq_ok_iff.2 ⟨_, by decide, .product (.factor (.atom hcall))⟩)

theorem tree_sumByCountOfTwo :
    (⟨"=SUM(A1,2)/COUNT(A1,2)", some "="⟩ : Formula).tree =
      .ok (.sumByCount [.cell ⟨0, 0⟩, .number (.ofNat 2)]) := by
  have hts : (⟨"=SUM(A1,2)/COUNT(A1,2)", some "="⟩ : Formula).tokens =
      .ok [⟨.name "SUM", 0⟩, ⟨.opening, 3⟩, ⟨.reference "A1", 4⟩, ⟨.comma, 6⟩,
        ⟨.number (.ofNat 2), 7⟩, ⟨.closing, 8⟩, ⟨.divide, 9⟩, ⟨.name "COUNT", 10⟩, ⟨.opening, 15⟩,
        ⟨.reference "A1", 16⟩, ⟨.comma, 18⟩, ⟨.number (.ofNat 2), 19⟩, ⟨.closing, 20⟩] := by cbv
  have hsum : IsAtom _ (.name "SUM" :: .opening :: _ ++ [.closing]) (.call "sum" _) :=
    .call (by decide) isArguments_oneTwo
  have hcount : IsAtom _ (.name "COUNT" :: .opening :: _ ++ [.closing]) (.call "count" _) :=
    .call (by decide) isArguments_oneTwo
  have hquotient : IsProduct _ (_ ++ .divide :: _) (.binary .div _ _) :=
    .operator (.factor (.atom hsum)) rfl (.atom hcount)
  exact (Formula.tree_eq_ok_iff hts).2 (parse_eq_ok_iff.2 ⟨_, by decide, .product hquotient⟩)

end Grid

namespace Evaluator

/-- The mean of one and two is one and a half, also as a quotient. -/
theorem evaluate_mean_eq_sumByCount_ofTwo :
    ∃ g g', Grid.ofRaw (Grid.besideOneTable "=AVERAGE(A1,2)") (some "=") = .ok g ∧
      Grid.ofRaw (Grid.besideOneTable "=SUM(A1,2)/COUNT(A1,2)") (some "=") = .ok g' ∧
      ((start g .standard divisionScale).evaluate ⟨0, 1⟩).2 = .ok (.ok ⟨false, 15, -1⟩) ∧
      ((start g' .standard divisionScale).evaluate ⟨0, 1⟩).2 = .ok (.ok ⟨false, 15, -1⟩) := by
  have hgrid := Grid.ofRaw_besideOneTable rfl Grid.tree_meanOfTwo
  have hgrid' := Grid.ofRaw_besideOneTable rfl Grid.tree_sumByCountOfTwo
  have hvalue : ((start (Grid.besideOne "=SUM(A1,2)/COUNT(A1,2)"
      (.sumByCount [.cell ⟨0, 0⟩, .number (.ofNat 2)])) .standard divisionScale).evaluate
        ⟨0, 1⟩).2.toOption.bind Except.toOption = some ⟨false, 15, -1⟩ := by decide +kernel
  refine ⟨_, _, hgrid, hgrid', ?_⟩
  -- The quotient has a value, so no argument fails and there are some values.
  rcases evaluate_mean_eq_sumByCount hgrid hgrid' (Grid.sameBut_besideOne _ _ _ _) rfl rfl
      (by decide) with
    ⟨v, vs, d, -, -, hmean, hquotient⟩ | ⟨f, f', -, -, hquotient, -⟩ | ⟨f, -, -, hquotient⟩
  · rw [hquotient] at hvalue
    obtain rfl : d = ⟨false, 15, -1⟩ := Option.some.inj hvalue
    exact ⟨hmean, hquotient⟩
  · rw [hquotient] at hvalue
    cases hvalue
  · rw [hquotient] at hvalue
    cases hvalue

end Evaluator

/-! ## The mean of a long sum -/

namespace Expr

open Program
open Formula (ones)

variable {s : Setting} {room n : Nat}

/-- A sum of ones comes to their number where there is room for it. -/
theorem program_ones (h : n < room) : (ones n).program s room = .done (.ofNat (n + 1)) := by
  induction n generalizing room with
  | zero =>
    obtain ⟨room, rfl⟩ := Nat.exists_eq_succ_of_ne_zero (Nat.ne_zero_of_lt h)
    rw [ones, program]
    rfl
  | succ n ih =>
    obtain ⟨room, rfl⟩ := Nat.exists_eq_succ_of_ne_zero (Nat.ne_zero_of_lt h)
    replace h := Nat.lt_of_succ_lt_succ h
    have hone : (number .one).program s room = .done .one := by
      obtain ⟨room, rfl⟩ := Nat.exists_eq_succ_of_ne_zero (Nat.ne_zero_of_lt h)
      rw [program]
    rw [ones, program, ih h, hone]
    simp only [done_bind, Setting.apply, Decimal.ofNat_add_one]

/-- Where there is less room, it fails, since its first operand lies too deep. -/
theorem program_ones_of_le (h : room ≤ n) :
    (ones n).program s room = .raise (.fault .tooDeep) := by
  induction n generalizing room with
  | zero =>
    obtain rfl := Nat.le_zero.1 h
    rw [program.eq_1]
  | succ n ih =>
    cases room with
    | zero => rw [program.eq_1]
    | succ room =>
      rw [ones, program, ih (Nat.le_of_succ_le_succ h)]
      rfl

theorem argumentsProgram_ones (s : Setting) (room n : Nat) :
    argumentsProgram s room [] [ones n] = (ones n).program s room >>= fun v => .done [v] := by
  have hrange : ¬∃ r, ones n = range r := by
    rintro ⟨r, hr⟩
    cases n <;> cases hr
  simp only [argumentsProgram_cons hrange, argumentsProgram]

/-- In the quotient there is one level less room for the sum than in the call for the mean. -/
theorem program_sumByCount_ones (hs : s.functions = .standard) (h : operandRoom ≤ n) :
    (sumByCount [ones n]).program s maxHeight = .raise (.fault .tooDeep) := by
  rw [show maxHeight = operandRoom + 2 from rfl, program_sumByCount hs, argumentsProgram_ones,
    program_ones_of_le h, raise_bind, raise_bind]

theorem isLegible_call_ones {name : String} (hname : Token.IsName name.toList)
    (hlower : Text.lower name = name) (n : Nat) : (call name [ones n]).IsLegible :=
  ⟨hname, hlower, (Formula.isLegible_ones n).2, trivial⟩

theorem isLegible_mean_ones (n : Nat) : (mean [ones n]).IsLegible := by
  have hname : Token.IsName "average".toList := Token.isName_of_all rfl rfl
  exact isLegible_call_ones hname rfl n

theorem isLegible_sumByCount_ones (n : Nat) : (sumByCount [ones n]).IsLegible := by
  have hsum : Token.IsName "sum".toList := Token.isName_of_all rfl rfl
  have hcount : Token.IsName "count".toList := Token.isName_of_all rfl rfl
  exact ⟨by rintro symbol ⟨⟩, ⟨trivial, isLegible_call_ones hsum rfl n⟩, trivial,
    isLegible_call_ones hcount rfl n⟩

theorem nestingAll_ones (n : Nat) : nestingAll [ones n] = 0 := by
  simp [nestingAll, Formula.nesting_ones n 0 (Nat.zero_le 1)]

end Expr

namespace Grid

/-- The table of a number and the text of a tree as a formula beside it. -/
def besidePrintedTable (e : Expr) : RawValue :=
  besideOneTable ("=" ++ String.ofList (e.printed 0))

/-- The grid of the table `besidePrintedTable`. -/
def besidePrinted (e : Expr) : Grid := besideOne ("=" ++ String.ofList (e.printed 0)) e

theorem ofRaw_besidePrintedTable {e : Expr} (hoperand : e.IsOperand) (hlegible : e.IsLegible)
    (hroom : e.nesting 0 ≤ Expr.maxNesting) :
    ofRaw (besidePrintedTable e) (some "=") = .ok (besidePrinted e) := by
  refine ofRaw_besideOneTable ?_ (Formula.tree_of_printed hoperand hlegible hroom "=")
  exact (Bool.true_and _).trans (Formula.isPrefixOf_append "=" _)

end Grid

namespace Evaluator

open DecimalSheet.Expr (mean sumByCount argumentsProgram argumentRoom operandRoom)
open Formula (ones)

/-- The mean of a sum of 999 ones is their number, and the quotient for it is too high. -/
theorem evaluate_sumByCount_ones :
    let args := [ones 998]
    let g := Grid.besidePrinted (mean args)
    let g' := Grid.besidePrinted (sumByCount args)
    let ev := start g .standard divisionScale
    let ev' := start g' .standard divisionScale
    Grid.ofRaw (Grid.besidePrintedTable (mean args)) (some "=") = .ok g ∧
      Grid.ofRaw (Grid.besidePrintedTable (sumByCount args)) (some "=") = .ok g' ∧
      g.SameBut ⟨0, 1⟩ g' ∧ (g.cell? ⟨0, 1⟩).bind Cell.tree? = some (mean args) ∧
      (g'.cell? ⟨0, 1⟩).bind Cell.tree? = some (sumByCount args) ∧
      ev.argumentValues ⟨0, 1⟩ args = .ok (.ok [.ofNat 999]) ∧
      (ev.evaluate ⟨0, 1⟩).2 = .ok (.ok (.ofNat 999)) ∧
      ∃ f, (ev'.evaluate ⟨0, 1⟩).2 = .ok (.error f) ∧ f.fault = .tooDeep := by
  intro args g g' ev ev'
  have hmeanRoom : (mean args).nesting 0 ≤ Expr.maxNesting := by
    rw [mean, Expr.nesting, Expr.nestingAll_ones]
    decide
  have hquotientRoom : (sumByCount args).nesting 0 ≤ Expr.maxNesting := by
    simp only [sumByCount, Expr.nesting, args, Expr.nestingAll_ones]
    decide
  have hgrid := Grid.ofRaw_besidePrintedTable (e := mean args) trivial
    (Expr.isLegible_mean_ones 998) hmeanRoom
  have hgrid' := Grid.ofRaw_besidePrintedTable (e := sumByCount args) trivial
    (Expr.isLegible_sumByCount_ones 998) hquotientRoom
  have hvalues : ev.argumentValues ⟨0, 1⟩ args = .ok (.ok [.ofNat 999]) := by
    have hdone : argumentsProgram ev.setting argumentRoom [] args = .done [.ofNat 999] := by
      rw [Expr.argumentsProgram_ones, Expr.program_ones (by decide), Program.done_bind]
    rw [argumentValues, hdone]
    rfl
  refine ⟨hgrid, hgrid', Grid.sameBut_besideOne _ _ _ _, rfl, rfl, hvalues, ?_, ?_⟩
  · obtain ⟨o, ho, hmean⟩ :=
      exists_evaluate_mean (s := ⟨g, .standard, divisionScale⟩) rfl rfl hvalues
    obtain ⟨d, hd, rfl⟩ := hmean.exists_of_cons
    have haverage : Aggregate.average? [.ofNat 999] = some (.ofNat 999) := by decide +kernel
    obtain rfl := Option.some.inj (haverage.symm.trans hd)
    exact ho
  · have htree : Calculation.tree? ⟨g', .standard, divisionScale⟩ ⟨0, 1⟩ =
      some (sumByCount args) := rfl
    obtain ⟨source, hevaluate⟩ := evaluate_start htree
    have hdeep : (sumByCount args).program (Calculation.setting ⟨g', .standard, divisionScale⟩)
        Expr.maxHeight = .raise (.fault .tooDeep) :=
      Expr.program_sumByCount_ones rfl (by decide)
    rw [hdeep] at hevaluate
    exact ⟨(ev'.begin ⟨0, 1⟩ source).nextFailure .tooDeep ⟨0, 1⟩, hevaluate, rfl⟩

end Evaluator

end DecimalSheet
