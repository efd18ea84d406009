import DecimalSheet.Proofs.Evaluation.CircularReferences

/-!
# Trails of formulas

The cells for which a formula has asked are its trail. A formula asks for the cells that it mentions
in the order in which it mentions them, whatever numbers it is given, so its trail is a beginning of
these, and all of them once it has a result. The dependencies of a cell are exactly its trail, at
every moment of a session, since each request is recorded once it is made and a formula is started
only once.

What is kept of a cell is explained by its trail: the formula has come to its number, or to its
failure, with the numbers of the cells on the trail, or the last cell on the trail has handed its
own failure on. A failure is handed on by a cell for which it is kept, by a cell on the stack, for
which it is kept later, or by a cell that was left in progress and is refused.

## Main definitions

* `Program.Follows as p`: the program asks for the cells in the list, in their order
* `Evaluator.HasAsked ev c trail`: the dependencies of the cell `c` are the cells on the trail
* `Evaluator.Recorded ev denies c`: what is kept of the cell `c` is explained by its trail
* `Evaluator.IsTracking ev c p`, `Evaluator.Tracks ev a below`: the trails of the formulas under way
* `Moment.IsTracked left m`: the invariant of a session

## Main results

* `Expr.follows_program`: formulas ask for the cells that they mention
* `Moment.Step.isTracked`: all steps keep the invariant
* `Moment.exists_isTracked_after`: what is kept after calls is explained by trails
-/

namespace DecimalSheet

/-- The outcome that a cell at an address has from the start, if it holds no formula. -/
def Content.outcome? (a : Address) : Content → Option Outcome
  | literal value => some (.ok value)
  | unreadable _ fault => some (.error ⟨fault, fault.ownOrigin?.getD a, .construction⟩)
  | formula .. => none

theorem Cell.tree?_eq_none {cell : Cell} {a : Address} {o : Outcome}
    (h : cell.content.outcome? a = some o) : cell.tree? = none := by
  unfold tree?
  split
  · rename_i hcontent
    rw [hcontent] at h
    cases h
  · rfl

/-! ## Programs -/

namespace Program

variable {α β : Type} {as bs : List Address} {p : Program α}

/-- Whatever numbers it is given, the program asks for the cells in the list, in their order, and
has a result only after all of them. -/
def Follows (as : List Address) : Program α → Prop
  | done _ => as = []
  | raise _ => True
  | ask a next => ∃ rest, as = a :: rest ∧ ∀ v, (next v).Follows rest

theorem Follows.bind {f : α → Program β} (h : p.Follows as) (hf : ∀ v, (f v).Follows bs) :
    (p >>= f).Follows (as ++ bs) := by
  induction p generalizing as with
  | done value =>
    obtain rfl : as = [] := h
    exact hf value
  | raise raised => trivial
  | ask a next ih =>
    obtain ⟨rest, rfl, hnext⟩ := h
    exact ⟨rest ++ bs, rfl, fun v => ih v (hnext v)⟩

theorem follows_ofExcept {x : Except Raised α} : (ofExcept x).Follows [] := by
  cases x <;> trivial

theorem follows_request {s : Setting} {a : Address} {next : Decimal → Program α}
    (h : ∀ v, (next v).Follows as) : (s.request a next).Follows (a :: as) := by
  unfold Setting.request
  split
  · exact ⟨as, rfl, h⟩
  · trivial

theorem follows_members {s : Setting} {r : Range} (i : Nat) (found : List Decimal) (count : Nat) :
    (s.members r i found count).Follows ((List.range' i count).map r.member) := by
  induction count generalizing i found with
  | zero => rfl
  | succ count ih => exact follows_request fun v => ih (i + 1) (v :: found)

theorem follows_range {s : Setting} {room : Nat} {r : Range} {found : List Decimal} :
    (s.argumentMembers room r found).Follows r.members := by
  unfold Setting.argumentMembers
  split
  · trivial
  · rw [Range.members_eq_map, List.range_eq_range']
    exact follows_members 0 found r.size

theorem follows_apply {s : Setting} (op : Operator) (a b : Decimal) :
    (s.apply op a b).Follows [] := by
  cases op with
  | add | sub | mul => rfl
  | div => exact follows_ofExcept
  | unknown symbol => trivial

end Program

namespace Expr

variable {s : Setting}

mutual

/-- The program of an expression asks for the cells that the expression mentions, in their order. -/
theorem follows_program :
    (e : Expr) → (room : Nat) → (e.program s room).Follows e.mentions
  | _, 0 | range _, _ + 1 | foreign _, _ + 1 => by unfold program; trivial
  | number _, _ + 1 => by unfold program; rfl
  | cell a, room + 1 => by
    rw [program]
    exact Program.follows_request fun _ => rfl
  | negate operand, room + 1 => by
    rw [program, mentions_negate, ← List.append_nil operand.mentions]
    exact (follows_program operand room).bind fun _ => rfl
  | binary op left right, room + 1 => by
    rw [program, mentions_binary, ← List.append_nil right.mentions]
    exact (follows_program left room).bind fun a => (follows_program right room).bind fun b =>
      Program.follows_apply op a b
  | call name args, room + 1 => by
    rw [program, mentions_call, ← List.append_nil (mentionsAll args)]
    split
    · trivial
    · exact (follows_argumentsProgram args room []).bind fun _ => Program.follows_ofExcept

theorem follows_argumentsProgram :
    (es : List Expr) → (room : Nat) → (found : List Decimal) →
      (argumentsProgram s room found es).Follows (mentionsAll es)
  | [], _, _ => rfl
  | e :: args, room, found => by
    have hvalue := follows_program e room
    have hargs := follows_argumentsProgram args room
    rw [mentionsAll_cons]
    cases e with
    | range r =>
      rw [argumentsProgram, mentions_range]
      exact Program.follows_range.bind hargs
    | _ =>
      simp only [argumentsProgram]
      exact hvalue.bind fun v => hargs (v :: found)

end

end Expr

/-! ## Trails -/

namespace Evaluator

variable {ev ev' : Evaluator} {denies denies' : Failure → Address → Prop} {a c : Address}
  {as trail : List Address} {below : List Frame} {p : Program Decimal} {left : Address → Prop}

/-- The dependencies of the cell are the cells on the trail. -/
def HasAsked (ev : Evaluator) (c : Address) (trail : List Address) : Prop :=
  ∀ b, c ∈ ev.dependencies.dependantsOf b ↔ b ∈ trail

/-- The cells have numbers. -/
def Knows (ev : Evaluator) (as : List Address) : Prop := ∀ b ∈ as, ∃ v, ev.number? b = some v

/-- What is left of the formula of a cell once the requests for cells with numbers are answered. -/
def rest (ev : Evaluator) (tree : Expr) : Program Decimal :=
  (tree.program ev.setting Expr.maxHeight).rest ev.number?

/-- What is kept of a cell is explained by its trail. A failure may be handed on by another cell, as
`denies` tells. -/
inductive Recorded (ev : Evaluator) (denies : Failure → Address → Prop) (c : Address) : Prop
  /-- The cell has not been begun. -/
  | unasked (h : ev.status[c]? = none) (hasked : ev.HasAsked c [])
  /-- The cell holds its outcome from the start. -/
  | held {cell : Cell} {o : Outcome} (hcell : ev.grid.cell? c = some cell)
    (hholds : cell.content.outcome? c = some o) (h : ev.status[c]? = some (.finished o))
    (hasked : ev.HasAsked c [])
  /-- The formula is under way, or it was left. -/
  | inProgress {tree : Expr} (htree : ev.calculation.tree? c = some tree)
    (h : ev.status[c]? = some .inProgress)
  /-- The formula has come to a number. -/
  | done {tree : Expr} {v : Decimal} (htree : ev.calculation.tree? c = some tree)
    (h : ev.status[c]? = some (.finished (.ok v))) (hasked : ev.HasAsked c tree.mentions)
    (hknows : ev.Knows tree.mentions) (hrest : ev.rest tree = .done v)
  /-- The formula has come to a fault. -/
  | raised {tree : Expr} {f : Failure} {trail : List Address}
    (htree : ev.calculation.tree? c = some tree)
    (h : ev.status[c]? = some (.finished (.error f))) (hbegins : trail <+: tree.mentions)
    (hasked : ev.HasAsked c trail) (hknows : ev.Knows trail)
    (hrest : ev.rest tree = .raise (.fault f.fault))
    (horigin : f.origin = f.fault.ownOrigin?.getD c)
  /-- The last request of the formula was answered with a failure. -/
  | denied {tree : Expr} {f : Failure} {trail : List Address} {a : Address}
    (htree : ev.calculation.tree? c = some tree)
    (h : ev.status[c]? = some (.finished (.error f))) (hbegins : trail ++ [a] <+: tree.mentions)
    (hasked : ev.HasAsked c (trail ++ [a])) (hknows : ev.Knows trail) (hdenies : denies f a)

theorem Knows.mono (h : ev.Knows as)
    (hnumbers : ∀ b v, ev.number? b = some v → ev'.number? b = some v) : ev'.Knows as := by
  intro b hb
  obtain ⟨v, hv⟩ := h b hb
  exact ⟨v, hnumbers b v hv⟩

theorem Knows.append_singleton {v : Decimal} (h : ev.Knows as) (hv : ev.number? a = some v) :
    ev.Knows (as ++ [a]) := by
  intro b hb
  rcases List.mem_append.1 hb with hb | hb
  · exact h b hb
  · exact ⟨v, List.mem_singleton.1 hb ▸ hv⟩

/-- One evaluator has come from another one: it knows all numbers that the other one knows. -/
structure Extends (ev ev' : Evaluator) : Prop where
  calculation_eq : ev'.calculation = ev.calculation
  number?_eq : ∀ b v, ev.number? b = some v → ev'.number? b = some v

/-- The dependencies of the cell have stayed the same. -/
def AsksNoMore (ev ev' : Evaluator) (c : Address) : Prop :=
  ∀ b, c ∈ ev'.dependencies.dependantsOf b ↔ c ∈ ev.dependencies.dependantsOf b

theorem HasAsked.of_asksNoMore (h : ev.HasAsked c trail) (hasked : ev.AsksNoMore ev' c) :
    ev'.HasAsked c trail :=
  fun b => (hasked b).trans (h b)

/-- A result to which a formula has come stays as it is. -/
theorem Extends.rest_eq {tree : Expr} {q : Program Decimal} (h : ev.Extends ev')
    (hrest : ev.rest tree = q) (hq : q.rest ev'.number? = q) : ev'.rest tree = q := by
  rw [rest, setting_eq, h.calculation_eq, ← Program.rest_rest h.number?_eq, ← setting_eq]
  exact (congrArg _ hrest).trans hq

/-- What explains the status of a cell goes on to do so. -/
theorem Recorded.extend (h : ev.Recorded denies c) (hextends : ev.Extends ev')
    (hsame : ev.AsksNoMore ev' c) (hstatus : ev'.status[c]? = ev.status[c]?)
    (hdenies : ∀ f a, denies f a → denies' f a) : ev'.Recorded denies' c := by
  have hcalculation := hextends.calculation_eq
  cases h with
  | unasked h hasked => exact .unasked (hstatus.trans h) (hasked.of_asksNoMore hsame)
  | held hcell hholds h hasked =>
    have hgrid : ev'.grid = ev.grid := congrArg Calculation.grid hcalculation
    exact .held (hgrid ▸ hcell) hholds (hstatus.trans h) (hasked.of_asksNoMore hsame)
  | inProgress htree h => exact .inProgress (hcalculation ▸ htree) (hstatus.trans h)
  | done htree h hasked hknows hrest =>
    exact .done (hcalculation ▸ htree) (hstatus.trans h) (hasked.of_asksNoMore hsame)
      (hknows.mono hextends.number?_eq) (hextends.rest_eq hrest rfl)
  | raised htree h hbegins hasked hknows hrest horigin =>
    exact .raised (hcalculation ▸ htree) (hstatus.trans h) hbegins (hasked.of_asksNoMore hsame)
      (hknows.mono hextends.number?_eq) (hextends.rest_eq hrest rfl) horigin
  | denied htree h hbegins hasked hknows hdenied =>
    exact .denied (hcalculation ▸ htree) (hstatus.trans h) hbegins (hasked.of_asksNoMore hsame)
      (hknows.mono hextends.number?_eq) (hdenies _ _ hdenied)

/-- A cell that has not been begun has asked for nothing. -/
theorem Recorded.hasAsked_nil (h : ev.Recorded denies c) (hnew : ev.status[c]? = none) :
    ev.HasAsked c [] := by
  cases h with
  | unasked _ hasked => exact hasked
  | held _ _ h | inProgress _ h | done _ h | raised _ h | denied _ h => cases hnew.symm.trans h

/-! ## Formulas under way -/

/-- The formula of a cell has asked for the cells on its trail, has been given their numbers, and
goes on with the cells that it mentions after them. -/
structure IsTracking (ev : Evaluator) (c : Address) (trail : List Address) (p : Program Decimal) :
    Prop where
  follows : ∃ tree as, ev.calculation.tree? c = some tree ∧ tree.mentions = trail ++ as ∧
    p.Follows as
  knows : ev.Knows trail

/-- The formulas on a stack wait, the topmost one for the cell `a` and every other one for the one
above it. The cells that they wait for are the last ones on their trails. -/
inductive Tracks (ev : Evaluator) : Address → List Frame → Prop
  | nil {a : Address} : Tracks ev a []
  | cons {trail : List Address} {a : Address} {frame : Frame} {below : List Frame}
    (htracking : ev.IsTracking frame.cell trail (.ask a frame.next))
    (hasked : ev.HasAsked frame.cell (trail ++ [a])) (hbelow : Tracks ev frame.cell below) :
    Tracks ev a (frame :: below)

theorem IsTracking.extend (h : ev.IsTracking c trail p) (hextends : ev.Extends ev') :
    ev'.IsTracking c trail p := by
  obtain ⟨tree, as, htree, hrest⟩ := h.follows
  exact ⟨⟨tree, as, hextends.calculation_eq ▸ htree, hrest⟩, h.knows.mono hextends.number?_eq⟩

theorem Tracks.extend (h : ev.Tracks a below) (hextends : ev.Extends ev')
    (hsame : ∀ c ∈ below.map (·.cell), ev.AsksNoMore ev' c) : ev'.Tracks a below := by
  induction h with
  | nil => exact .nil
  | cons htracking hasked _ ih =>
    obtain ⟨htop, hothers⟩ := List.forall_mem_cons.1 hsame
    exact .cons (htracking.extend hextends) (hasked.of_asksNoMore htop) (ih hothers)

theorem IsTracking.of_ask {next : Decimal → Program Decimal} {v : Decimal}
    (h : ev.IsTracking c trail (.ask a next)) (hv : ev.number? a = some v) :
    ev.IsTracking c (trail ++ [a]) (next v) := by
  obtain ⟨tree, as, htree, hmentions, rest, rfl, hnext⟩ := h.follows
  refine ⟨⟨tree, rest, htree, ?_, hnext v⟩, h.knows.append_singleton hv⟩
  rw [hmentions, List.append_assoc]
  rfl

end Evaluator

/-- The formulas under way follow their trails, and what is kept is explained by trails. -/
structure Run.IsTracked (denies : Failure → Address → Prop) (r : Run) : Prop where
  recorded : ∀ c, r.evaluator.Recorded denies c
  tracks : match r.phase with
    | .running c p below => ∃ trail, r.evaluator.IsTracking c trail p ∧
        r.evaluator.HasAsked c trail ∧ r.evaluator.Tracks c below
    | .returning o below => ∃ a, r.evaluator.Gives a o ∧ r.evaluator.Tracks a below
    | .aborted _ => True

namespace Evaluator

variable {ev : Evaluator} {denies : Failure → Address → Prop} {a c : Address} {o : Outcome}
  {trail : List Address} {below : List Frame} {p : Program Decimal} {left : Address → Prop}

theorem extends_keep (hc : ev.status[c]? = none ∨ ev.status[c]? = some .inProgress) :
    ev.Extends (ev.keep c o) :=
  ⟨rfl, fun _ _ => (advances_keep hc).number?_eq⟩

/-- A cell gets an outcome that is explained by its trail. -/
theorem settle_isTracked (hc : ev.status[c]? = none ∨ ev.status[c]? = some .inProgress)
    (hrecorded : ∀ d, ev.Recorded denies d) (htop : (ev.keep c o).Recorded denies c)
    (hbelow : ev.Tracks c below) : (ev.settle c o below).IsTracked denies := by
  refine ⟨fun d => ?_, c, .inl outcome?_keep, hbelow.extend (extends_keep hc) fun _ _ _ => .rfl⟩
  by_cases hdc : d = c
  · exact hdc ▸ htop
  · refine (hrecorded d).extend (extends_keep hc) (fun _ => .rfl) ?_ fun _ _ => id
    exact Calculation.getElem?_insert.trans (if_neg hdc)

/-- A request for a cell inside of the grid keeps the trails. -/
theorem RequestsTo.isTracked {r : Run} (h : ev.RequestsTo a below r) (ha : ev.grid.Contains a)
    (hrecorded : ∀ d, ev.Recorded denies d) (hbelow : ev.Tracks a below) :
    r.IsTracked denies := by
  -- Without a formula there is nothing to ask for.
  have hheld : ∀ cell o, ev.status[a]? = none → ev.grid.cell? a = some cell →
      cell.content.outcome? a = some o → (ev.settle a o below).IsTracked denies := by
    intro cell o hnew hcell hholds
    refine settle_isTracked (.inl hnew) hrecorded (.held hcell hholds ?_ ?_) hbelow
    · exact Calculation.getElem?_insert.trans (if_pos rfl)
    · exact (hrecorded a).hasAsked_nil hnew
  cases h with
  | kept hkept => exact ⟨hrecorded, a, .inl (outcome?_eq_some_iff.2 hkept), hbelow⟩
  | refused hrefused =>
    have hextends : ev.Extends (ev.refuseCircular a below).evaluator := ⟨rfl, fun _ _ => id⟩
    refine ⟨fun d => ?_, a, .inr ⟨hrefused, _, _, rfl, rfl, rfl⟩, ?_⟩
    · exact (hrecorded d).extend hextends (fun _ => .rfl) rfl fun _ _ => id
    · exact hbelow.extend hextends fun _ _ _ => .rfl
  | literal hnew hcell hcontent => exact hheld _ _ hnew hcell (by rw [hcontent]; rfl)
  | unreadable hnew hcell hcontent => exact hheld _ _ hnew hcell (by rw [hcontent]; rfl)
  | @formula cell f tree references hnew hcell hcontent =>
    have htree : ev.calculation.tree? a = some tree :=
      Calculation.tree?_eq_some_iff.2 ⟨cell, f, references, hcell, hcontent⟩
    have hextends : ev.Extends (ev.startFormula a f.source tree below).evaluator :=
      ⟨rfl, fun _ _ => (advances_startFormula hnew).number?_eq⟩
    refine ⟨fun d => ?_, [], ⟨⟨tree, _, htree, rfl, Expr.follows_program tree _⟩, ?_⟩, ?_, ?_⟩
    · by_cases hda : d = a
      · subst hda
        exact .inProgress htree (Calculation.getElem?_insert.trans (if_pos rfl))
      · refine (hrecorded d).extend hextends (fun _ => .rfl) ?_ fun _ _ => id
        exact Calculation.getElem?_insert.trans (if_neg hda)
    · exact List.forall_mem_nil _
    · exact (hrecorded a).hasAsked_nil hnew
    · exact hbelow.extend hextends fun _ _ _ => .rfl
  | outside hnew hcell =>
    obtain ⟨cell, hcell'⟩ := Grid.exists_cell?_of_contains ha
    cases hcell.symm.trans hcell'

/-- A request of one cell concerns no other cell. -/
theorem asksNoMore_depend {d : Address} (hdc : d ≠ c) : ev.AsksNoMore (ev.depend a c) d := by
  intro b
  refine Dependencies.mem_dependantsOf_record.trans (or_iff_left ?_)
  rintro ⟨-, rfl⟩
  exact hdc rfl

/-- A request becomes the last one on the trail. -/
theorem HasAsked.depend (h : ev.HasAsked c trail) : (ev.depend a c).HasAsked c (trail ++ [a]) := by
  intro b
  refine Dependencies.mem_dependantsOf_record.trans ?_
  rw [h b]
  simp

/-- What is kept stays explained when a formula that is under way makes a request. -/
theorem recorded_depend {tree : Expr} (htree : ev.calculation.tree? c = some tree)
    (hc : ev.status[c]? = some .inProgress) (hrecorded : ∀ d, ev.Recorded denies d) (d : Address) :
    (ev.depend a c).Recorded denies d := by
  by_cases hdc : d = c
  · rw [hdc]
    exact .inProgress (show (ev.depend a c).calculation.tree? c = some tree from htree) hc
  · exact (hrecorded d).extend ⟨rfl, fun _ _ => id⟩ (asksNoMore_depend hdc) rfl fun _ _ => id

/-- Going on with the topmost formula keeps the trails. -/
theorem proceed_isTracked {k : Nat} (hbusy : ev.IsBusyWith left (c :: below.map (·.cell)))
    (hcontinues : ev.calculation.Continues ev.number? c k p)
    (hrecorded : ∀ d, ev.Recorded denies d) (htracking : ev.IsTracking c trail p)
    (hasked : ev.HasAsked c trail) (hbelow : ev.Tracks c below) :
    (ev.proceed c p below).IsTracked denies := by
  have hc := hbusy.inProgress_of_mem List.mem_cons_self
  obtain ⟨tree, as, htree, hmentions, hfollows⟩ := htracking.follows
  have hrest : ev.rest tree = p.rest ev.number? := by
    obtain ⟨tree', htree', hrest⟩ := hcontinues.rest_eq
    obtain rfl := Option.some.inj (htree.symm.trans htree')
    exact hrest
  cases p with
  | done value =>
    -- The formula has asked for all cells that it mentions.
    obtain rfl : as = [] := hfollows
    rw [List.append_nil] at hmentions
    subst hmentions
    have hextends : ev.Extends (ev.keep c (.ok value)) := extends_keep (.inr hc)
    refine settle_isTracked (.inr hc) hrecorded (.done (v := value) htree ?_ hasked ?_ ?_)
      hbelow
    · exact Calculation.getElem?_insert.trans (if_pos rfl)
    · exact htracking.knows.mono hextends.number?_eq
    · exact hextends.rest_eq hrest rfl
  | raise raised =>
    cases raised with
    | abort reason => exact ⟨hrecorded, trivial⟩
    | fault fault =>
      have hextends : ev.Extends (ev.countFailure.keep c (.error (ev.nextFailure fault c))) :=
        ⟨rfl, fun _ _ => (advances_countFailure.trans (advances_keep (.inr hc))).number?_eq⟩
      have hcounted : ∀ d, ev.countFailure.Recorded denies d := fun d =>
        (hrecorded d).extend ⟨rfl, fun _ _ => id⟩ (fun _ => .rfl) rfl fun _ _ => id
      show (ev.countFailure.settle c _ below).IsTracked denies
      refine settle_isTracked (.inr hc) hcounted
        (.raised (f := ev.nextFailure fault c) htree ?_ ⟨as, hmentions.symm⟩ hasked ?_ ?_ rfl)
        (hbelow.extend ⟨rfl, fun _ _ => id⟩ fun _ _ _ => .rfl)
      · exact Calculation.getElem?_insert.trans (if_pos rfl)
      · exact htracking.knows.mono hextends.number?_eq
      · exact hextends.rest_eq hrest rfl
  | ask a next =>
    have hextends : ev.Extends (ev.depend a c) := ⟨rfl, fun _ _ => id⟩
    refine (requestsTo_request _ _ _).isTracked hcontinues.contains
      (recorded_depend htree hc hrecorded)
      (.cons (htracking.extend hextends) hasked.depend (hbelow.extend hextends fun d hd => ?_))
    -- The cell itself does not wait below.
    refine asksNoMore_depend ?_
    rintro rfl
    exact (List.nodup_cons.1 hbusy.nodup).1 hd

end Evaluator

namespace Run

variable {s : Calculation} {left : Address → Prop} {target : Address} {n : Nat} {r : Run}
  {denies : Failure → Address → Prop}

/-- One turn keeps the trails. A failure is handed on only by a cell that gives it. -/
theorem IsTracked.turn (hr : r.IsOrderly s left target n) (h : r.IsTracked denies)
    (hdenies : ∀ f a frame below, r.phase = .returning (.error f) (frame :: below) →
      r.evaluator.Gives a (.error f) → denies f a) : r.turn.IsTracked denies := by
  obtain ⟨ev, phase⟩ := r
  obtain ⟨rfl, hphase⟩ := hr
  obtain ⟨hrecorded, htracks⟩ := h
  cases phase with
  | running c p below =>
    obtain ⟨k, m, hcontinues, -, hbusy, -⟩ := hphase
    obtain ⟨trail, htracking, hasked, hbelow⟩ := htracks
    exact Evaluator.proceed_isTracked hbusy hcontinues hrecorded htracking hasked hbelow
  | returning o below =>
    obtain ⟨b, m, hgives', hawaits, hbusy, -⟩ := hphase
    obtain ⟨a, hgives, hbelow⟩ := htracks
    cases hbelow with
    | nil => cases o <;> exact ⟨hrecorded, a, hgives, .nil⟩
    | @cons trail a frame below htracking hasked hbelow =>
      cases hawaits with
      | cons hcontinues =>
        cases o with
        | ok v =>
          exact Evaluator.proceed_isTracked hbusy (hcontinues.of_ask hgives'.number?_eq_some)
            hrecorded (htracking.of_ask hgives.number?_eq_some) hasked hbelow
        | error f =>
          -- The failure is handed on to the formula that waits.
          have hc := hbusy.inProgress_of_mem List.mem_cons_self
          obtain ⟨tree, as, htree, hmentions, rest, rfl, -⟩ := htracking.follows
          have hextends : ev.Extends (ev.keep frame.cell (.error f)) :=
            Evaluator.extends_keep (.inr hc)
          refine Evaluator.settle_isTracked (.inr hc) hrecorded
            (.denied (f := f) htree ?_ ⟨rest, ?_⟩ hasked ?_ (hdenies f a frame below rfl hgives))
            hbelow
          · exact Calculation.getElem?_insert.trans (if_pos rfl)
          · rw [hmentions, List.append_assoc]
            rfl
          · exact htracking.knows.mono hextends.number?_eq
  | aborted reason => exact ⟨hrecorded, trivial⟩

end Run

/-! ## Moments -/

namespace Moment

variable {kind : Kind} {kinds : List Kind} {m m' : Moment} {s s' : Calculation}
  {left left' : Address → Prop} {f : Failure} {a c : Address} {ev : Evaluator}

/-- A request for the cell gives the failure, or will do so once it has gone down the stack. -/
def Denies (left : Address → Prop) (m : Moment) (f : Failure) (a : Address) : Prop :=
  m.Fails f a ∨ left a ∧ f.origin = a ∧ ∃ cycle, f.fault = .circular a cycle

theorem Denies.step (h : m.Denies left f a) (hstep : Step kind m m') (hm : m.IsOrderly s left)
    (hleft : ∀ a, left a → left' a) : m'.Denies left' f a :=
  h.imp (hstep.fails hm) (And.imp_left (hleft a))

/-- What is kept is explained by trails, and the formulas under way follow theirs. -/
def IsTracked (left : Address → Prop) (m : Moment) : Prop :=
  match m with
  | idle ev => ∀ c, ev.Recorded ((idle ev).Denies left) c
  | busy r => r.IsTracked ((busy r).Denies left)

/-- A failure that a run hands on is that of a cell that goes on to fail with it, or of a cell that
was left. -/
theorem denies_of_gives {r : Run} {frame : Frame} {below : List Frame}
    (hm : (busy r).IsOrderly s left) (hphase : r.phase = .returning (.error f) (frame :: below))
    (h : r.evaluator.Gives a (.error f)) : (busy r).Denies left f a := by
  obtain ⟨hkept, target, n, hr⟩ := hm
  rcases h with hkept | ⟨hinProgress, f', cycle, hf, hfault, horigin⟩
  · exact .inl (.inl hkept)
  · cases hf
    -- The cell lies on the stack, or it was left behind.
    rcases ((hr.isBusyWith_stack hkept).inProgress_iff a).1 hinProgress with hstack | hleft
    · exact .inl (.inr ⟨r, _, rfl, hphase, hstack⟩)
    · exact .inr ⟨hleft, horigin, cycle, hfault⟩

/-- All steps keep the trails, except that functions may not be replaced. -/
theorem Step.isTracked (h : Step kind m m') (hkind : kind ≠ .registration)
    (hm : m.IsOrderly s left) (hleft : ∀ a, left a → left' a) (htracked : m.IsTracked left) :
    m'.IsTracked left' := by
  have hdenies : ∀ f a, m.Denies left f a → m'.Denies left' f a :=
    fun f a hd => hd.step h hm hleft
  -- What was explained before the step is explained after it.
  have hlater : ∀ (ev : Evaluator) c, ev.Recorded (m.Denies left) c →
      ev.Recorded (m'.Denies left') c :=
    fun ev c hc => hc.extend ⟨rfl, fun _ _ => id⟩ (fun _ => .rfl) rfl hdenies
  have hturn : ∀ r, m = busy r → r.turn.IsTracked (m'.Denies left') := by
    rintro r rfl
    obtain ⟨hkept, target, n, hr⟩ := hm
    refine Run.IsTracked.turn hr ⟨fun c => hlater _ c (htracked.recorded c), htracked.tracks⟩ ?_
    exact fun f a frame below hphase hgives =>
      hdenies f a (denies_of_gives ⟨hkept, target, n, hr⟩ hphase hgives)
  cases h with
  | @begin ev a ha =>
    exact (ev.requestsTo_request a []).isTracked ha (fun c => hlater ev c (htracked c)) .nil
  | @turn r hover hkept => exact hturn r rfl
  | finish => exact fun c => hlater _ c (htracked.recorded c)
  | tell =>
    refine fun c => (hlater _ c (htracked c)).extend ⟨rfl, fun _ _ => id⟩ (fun _ => .rfl) rfl ?_
    exact fun _ _ => id
  | @giveUp r hover hgiven => exact (hturn r rfl).recorded
  | register => exact absurd rfl hkind

theorem isTracked_start (left : Address → Prop) :
    (idle (.start s.grid s.functions s.scale)).IsTracked left := by
  refine fun c => .unasked ?_ fun b => ?_
  · simp [Evaluator.start]
  · simp [Evaluator.start, Dependencies.dependantsOf, Dependencies.empty]

variable {table : RawValue} {marker : Option String}

/-- Steps keep the trails. -/
theorem Reaches.exists_isTracked (hgrid : Grid.ofRaw table marker = .ok s.grid)
    (hfixed : .registration ∉ kinds) (h : m.Reaches kinds m') (hm : m.IsOrderly s left)
    (htracked : m.IsTracked left) :
    ∃ left' : Address → Prop, m'.IsOrderly s left' ∧ m'.IsTracked left' := by
  refine h.induction hgrid hm (P := fun m => ∃ left : Address → Prop, m.IsOrderly s left ∧
    m.IsTracked left) ⟨left, hm, htracked⟩ ?_
  rintro kind hkind m m' s' left' - - hstep ⟨left, horderly, htracked⟩
  obtain ⟨s'', left'', hkeeps, horderly'⟩ :=
    hstep.isOrderly (Calculation.isProper_of_ofRaw hgrid) horderly
  have hkind' : kind ≠ .registration := fun heq => hfixed (heq ▸ hkind)
  obtain rfl := hkeeps.eq (by simpa using hkind'.symm)
  exact ⟨left'', horderly', hstep.isTracked hkind' horderly hkeeps.left_mono htracked⟩

/-- Whatever is asked of an evaluator, what it keeps is explained by trails. -/
theorem exists_isTracked_after (hgrid : Grid.ofRaw table marker = .ok s.grid) (calls : List Call) :
    let ev := (Evaluator.start s.grid s.functions s.scale).after calls
    ∃ left : Address → Prop, (idle ev).IsOrderly s left ∧ (idle ev).IsTracked left := by
  intro ev
  have hstart : (idle (.start s.grid s.functions s.scale)).IsOrderly s fun _ => False :=
    isOrderly_start
  have hreaches : (idle (.start s.grid s.functions s.scale)).Reaches [.evaluation, .abandonment]
      (idle ev) := hstart.reaches_calls hgrid (by decide) (by decide) (.inr (by decide)) calls
  exact hreaches.exists_isTracked hgrid (by decide) hstart (isTracked_start _)

end Moment

end DecimalSheet
