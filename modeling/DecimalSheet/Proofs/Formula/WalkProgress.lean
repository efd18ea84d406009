import DecimalSheet.Proofs.Formula.Contents
import DecimalSheet.Proofs.Formula.WalkReading

/-!
# The walk comes to an end

A step of the walk looks only at items that are there. What a function relies on without a look has
been seen by the function that called it: the name of a call, the parenthesis behind it and the
colon of a range. A function that calls another one at the index at which it was called itself calls
one whose rule is of a lower rank, so no function of a rule is called within another one of the same
rule without a token between them. Every step lowers a bound that is linear in the number of tokens
that are left.

## Main definitions

* `Walk.Activation`, `Walk.State.activations`: the calls of the functions that have not returned
* `Walk.State.Sound`: what is true of every state of the walk
* `Walk.State.potential`: a bound on the steps that are left
* `Walk.Move`: what a step can do

## Main results

* `Walk.Move.of_step`: every step from a sound state is a move
* `Walk.Move.sound`, `Walk.Move.potential_lt`: a move leads to a sound state and lowers the bound
* `Walk.walk_is_safe`: the walk over the tokens of a list, and the tree to which it comes
-/

namespace DecimalSheet.Walk

open DecimalSheet.Expr

/-! ## Functions that have been called -/

/-- A function of a rule that was called at an index and has not returned. -/
structure Activation where
  began : Nat
  rule : Rule

namespace Activation

/-- The inner function was called behind the index at which the outer one was called, or there,
and then its rule is of a lower rank. -/
def Within (inner outer : Activation) : Prop :=
  outer.began < inner.began ∨ outer.began = inner.began ∧ inner.rule.rank < outer.rule.rank

theorem Within.trans {a b c : Activation} (hab : a.Within b) (hbc : b.Within c) : a.Within c := by
  unfold Within at *
  omega

theorem Within.began_lt {a b : Activation} (h : a.Within b) (hrule : b.rule = a.rule) :
    b.began < a.began := by
  rcases h with hlt | ⟨-, hrank⟩
  · exact hlt
  · rw [hrule] at hrank
    exact absurd hrank (Nat.lt_irrefl _)

end Activation

/-- The call of a function that waits. -/
def Pending.activation (f : Pending) : Activation := ⟨f.began, f.pause.rule⟩

/-- The call of the function that comes next, at the index `i`. -/
def Control.activation? (i : Nat) : Control → Option Activation
  | .enter rule => some ⟨i, rule⟩
  | .inside began point => some ⟨began, point.rule⟩
  | .give _ => none

/-- The calls of the functions that have not returned, the last one first. -/
def State.activations (s : State) : List Activation :=
  (s.control.activation? s.index).toList ++ s.stack.map Pending.activation

variable {ts : List Token} {s s' : State} {i : Nat}

theorem State.activations_eq_cons {a : Activation}
    (h : s.control.activation? s.index = some a) :
    s.activations = a :: s.stack.map Pending.activation := by
  rw [activations, h]
  rfl

/-! ## What the walk relies on -/

/-- What a function relies on without a look at the item. -/
def Control.Ready (ts : List Token) (i : Nat) : Control → Prop
  | .enter .call => (∃ t name, ts[i]? = some t ∧ functionName? t = some name) ∧
      ts[i + 1]? = some .opening
  | .inside began (.named _) => began < i ∧ ts[i]? = some .opening
  | .inside began (.opened _) => began < i
  | .inside _ (.corner _) => ts[i]? = some .colon
  | _ => True

/-- The state of a walk that is in order. -/
structure State.Sound (ts : List Token) (s : State) : Prop where
  index_le : s.index ≤ ts.length
  ready : s.control.Ready ts s.index
  began_le : ∀ a ∈ s.activations, a.began ≤ s.index
  within : s.activations.Pairwise Activation.Within
  turn_lt : ∀ f ∈ s.stack, ∀ turn ∈ f.pause.turn?, turn < s.index

/-- A walk stays in order when nothing is called. -/
theorem State.Sound.of_sublist (hs : s.Sound ts) (hle : s.index ≤ s'.index)
    (hlength : s'.index ≤ ts.length) (hready : s'.control.Ready ts s'.index)
    (hactivations : s'.activations.Sublist s.activations) (hstack : s'.stack ⊆ s.stack) :
    s'.Sound ts where
  index_le := hlength
  ready := hready
  began_le a ha := Nat.le_trans (hs.began_le a (hactivations.subset ha)) hle
  within := hs.within.sublist hactivations
  turn_lt f hf turn ht := Nat.lt_of_lt_of_le (hs.turn_lt f (hstack hf) turn ht) hle

theorem State.Sound.began_le_of_active (hs : s.Sound ts) {a : Activation}
    (h : s.control.activation? s.index = some a) : a.began ≤ s.index := by
  refine hs.began_le a ?_
  rw [State.activations_eq_cons h]
  exact List.mem_cons_self

/-- A function passes a token before a function of the same rule is called within it. -/
theorem State.Sound.began_lt (hs : s.Sound ts) {rule : Rule} (hc : s.control = .enter rule)
    {f : Pending} (hf : f ∈ s.stack) (hrule : f.pause.rule = rule) : f.began < s.index := by
  have hactive : s.control.activation? s.index = some ⟨s.index, rule⟩ := by rw [hc]; rfl
  have hwithin := hs.within
  rw [State.activations_eq_cons hactive] at hwithin
  exact ((List.pairwise_cons.1 hwithin).1 _ (List.mem_map_of_mem hf)).began_lt hrule

theorem State.sound_start (room : Nat) (ts : List Token) : (State.start room).Sound ts where
  index_le := Nat.zero_le _
  ready := trivial
  began_le a ha := by
    obtain rfl := List.mem_singleton.1 ha
    exact Nat.le_refl _
  within := List.pairwise_singleton _ _
  turn_lt f hf := absurd hf List.not_mem_nil

/-! ## The steps that are left -/

/-- A bound on the steps that begin with the call of a function while the index stays. -/
@[simp] def Rule.weight : Rule → Nat
  | .whole => 14
  | .argument => 13
  | .chain .sum => 11
  | .chain .product => 8
  | .factor => 5
  | .atom => 3
  | .call => 1

/-- A bound on the steps of a function from a place on while the index stays. -/
@[simp] def Point.weight : Point → Nat
  | .opened _ => 17
  | .arguments _ _ => 2
  | _ => 1

/-- A bound on the steps of a function that has waited while the index stays. -/
@[simp] def Pause.weight : Pause → Nat
  | .argument _ _ _ => 3
  | .whole | .first _ | .next _ _ _ _ | .group => 2
  | .negated | .plain | .called | .value => 1

/-- A bound on the steps until something is returned while the index stays. -/
def Control.weight : Control → Nat
  | .enter rule => rule.weight
  | .inside _ point => point.weight
  | .give _ => 0

@[simp] theorem Control.weight_enter (rule : Rule) : (enter rule).weight = rule.weight := rfl

@[simp] theorem Control.weight_inside (began : Nat) (point : Point) :
    (inside began point).weight = point.weight := rfl

@[simp] theorem Control.weight_give (e : Expr) : (give e).weight = 0 := rfl

/-- A bound on the steps that are left. A step that passes a token raises the part without the index
by less than 17, and any other step lowers it. -/
def State.potential (ts : List Token) (s : State) : Nat :=
  17 * (ts.length - s.index) + (s.control.weight + (s.stack.map (·.pause.weight)).sum)

/-! ## What a step can do -/

/-- The walk comes to a result. -/
def Halt.IsResult : Halt → Prop
  | .done _ | .misfit _ _ => True
  | .outside | .nameless => False

/-- What a step from a state can do: the walk comes to a result, the function that comes next calls
another one, goes on or returns a tree, or a tree is returned to a function that waits. -/
inductive Move (ts : List Token) (s : State) : Except Halt State → Prop
  | ends {h : Halt} (hresult : h.IsResult) : Move ts s (.error h)
  | call {began room j : Nat} {p : Pause} {rule : Rule}
      (hactive : s.control.activation? s.index = some ⟨began, p.rule⟩) (hle : s.index ≤ j)
      (hlength : j ≤ ts.length) (hready : (Control.enter rule).Ready ts j)
      (hwithin : Activation.Within ⟨j, rule⟩ ⟨began, p.rule⟩) (hturn : ∀ turn ∈ p.turn?, turn < j)
      (hweight : 17 * (ts.length - j) + (rule.weight + p.weight) <
        17 * (ts.length - s.index) + s.control.weight) :
      Move ts s (.ok ⟨j, room, .enter rule, ⟨began, p⟩ :: s.stack⟩)
  | goOn {j : Nat} {control : Control}
      (hactive : ∀ a ∈ control.activation? j, s.control.activation? s.index = some a)
      (hle : s.index ≤ j) (hlength : j ≤ ts.length) (hready : control.Ready ts j)
      (hweight : 17 * (ts.length - j) + control.weight <
        17 * (ts.length - s.index) + s.control.weight) :
      Move ts s (.ok ⟨j, s.room, control, s.stack⟩)
  | resume {e : Expr} {f : Pending} {stack : List Pending} (hcontrol : s.control = .give e)
      (hstack : s.stack = f :: stack) :
      Move ts s (.ok ⟨s.index, s.room + f.pause.cost, f.resume e, stack⟩)

namespace Pending

variable {f : Pending} {e : Expr}

theorem weight_resume_lt : (f.resume e).weight < f.pause.weight := by
  obtain ⟨began, pause⟩ := f
  cases pause <;> exact Nat.lt_succ_self _

theorem activation_resume {a : Activation} (h : a ∈ (f.resume e).activation? i) :
    a = f.activation := by
  obtain ⟨began, pause⟩ := f
  cases pause <;> cases h <;> rfl

theorem ready_resume : (f.resume e).Ready ts i := by
  obtain ⟨began, pause⟩ := f
  cases pause <;> trivial

end Pending

theorem Pause.forall_turn {p : Pause} {P : Nat → Prop} (h : p.turn? = none) :
    ∀ turn ∈ p.turn?, P turn := by
  rw [h]
  rintro _ ⟨⟩

theorem toList_sublist {α : Type} {o o' : Option α} (h : ∀ a ∈ o, o' = some a) :
    o.toList.Sublist o'.toList := by
  cases o with
  | none => exact List.nil_sublist _
  | some a => exact h a rfl ▸ .refl _

namespace Move

/-! ## Moves keep the walk in order -/

theorem index_le (h : Move ts s (.ok s')) : s.index ≤ s'.index := by
  cases h with
  | call _ hle | goOn _ hle => exact hle
  | resume => exact Nat.le_refl _

theorem potential_lt (h : Move ts s (.ok s')) : s'.potential ts < s.potential ts := by
  unfold State.potential
  cases h with
  | call _ _ _ _ _ _ hweight =>
    simp only [List.map_cons, List.sum_cons, Control.weight_enter]
    omega
  | goOn _ _ _ _ hweight =>
    simp only
    omega
  | @resume e f stack hcontrol hstack =>
    have hlt : (f.resume e).weight < f.pause.weight := f.weight_resume_lt
    simp only [hcontrol, hstack, List.map_cons, List.sum_cons]
    omega

theorem sound (hs : s.Sound ts) (h : Move ts s (.ok s')) : s'.Sound ts := by
  have hle := h.index_le
  cases h with
  | @call began room j p rule hactive _ hlength hready hwithin hturn =>
    have hactivations := State.activations_eq_cons hactive
    have hall := hs.within
    rw [hactivations] at hall
    refine ⟨hlength, hready, ?_, ?_, ?_⟩
    · show ∀ a ∈ ⟨j, rule⟩ :: ⟨began, p.rule⟩ :: s.stack.map Pending.activation, a.began ≤ j
      rw [← hactivations]
      exact List.forall_mem_cons.2 ⟨Nat.le_refl j, fun a ha => Nat.le_trans (hs.began_le a ha) hle⟩
    · show (⟨j, rule⟩ :: ⟨began, p.rule⟩ :: s.stack.map Pending.activation).Pairwise _
      refine List.pairwise_cons.2 ⟨List.forall_mem_cons.2 ⟨hwithin, fun a ha => ?_⟩, hall⟩
      exact hwithin.trans ((List.pairwise_cons.1 hall).1 a ha)
    · refine List.forall_mem_cons.2 ⟨hturn, fun f hf turn ht => ?_⟩
      exact Nat.lt_of_lt_of_le (hs.turn_lt f hf turn ht) hle
  | goOn hactive _ hlength hready =>
    refine hs.of_sublist hle hlength hready (.append ?_ (.refl _)) (List.Subset.refl _)
    exact toList_sublist hactive
  | @resume e f stack hcontrol hstack =>
    refine hs.of_sublist hle hs.index_le Pending.ready_resume ?_ ?_
    · rw [State.activations, State.activations, hcontrol, hstack]
      show (_ ++ stack.map _).Sublist ((some f.activation).toList ++ stack.map _)
      refine .append (toList_sublist fun a ha => ?_) (.refl _)
      rw [Pending.activation_resume ha]
    · rw [hstack]
      exact List.subset_cons_self _ _

/-! ## Steps are moves -/

section Steps

variable {began : Nat} {p : Pause} {rule : Rule} {point : Point} {t : Token}

theorem of_refuse (hs : s.Sound ts) (what : Expected) :
    Move ts s (s.refuse (Token.marked ts) what) := by
  simp only [State.refuse, look_marked hs.index_le, bind, Except.bind]
  exact .ends trivial

theorem of_call {j : Nat} (hactive : s.control.activation? s.index = some ⟨began, p.rule⟩)
    (hle : s.index ≤ j) (hlength : j ≤ ts.length) (hready : (Control.enter rule).Ready ts j)
    (hwithin : Activation.Within ⟨j, rule⟩ ⟨began, p.rule⟩) (hturn : ∀ turn ∈ p.turn?, turn < j)
    (hweight : 17 * (ts.length - j) + (rule.weight + p.weight) <
      17 * (ts.length - s.index) + s.control.weight) :
    Move ts s (s.call began p rule j) := by
  unfold State.call
  split
  · exact .ends trivial
  · exact .call hactive hle hlength hready hwithin hturn hweight

/-- A function calls another one where it has been called itself. -/
theorem of_callHere (hs : s.Sound ts)
    (hactive : s.control.activation? s.index = some ⟨s.index, p.rule⟩)
    (hready : (Control.enter rule).Ready ts s.index) (hrank : rule.rank < p.rule.rank)
    (hturn : p.turn? = none) (hweight : rule.weight + p.weight < s.control.weight) :
    Move ts s (s.call s.index p rule s.index) :=
  of_call hactive (Nat.le_refl _) hs.index_le hready (.inr ⟨rfl, hrank⟩)
    (Pause.forall_turn hturn) (Nat.add_lt_add_left hweight _)

/-- A function calls another one behind the token at the index. -/
theorem of_callNext (hs : s.Sound ts) (ht : ts[s.index]? = some t)
    (hactive : s.control.activation? s.index = some ⟨began, p.rule⟩)
    (hready : (Control.enter rule).Ready ts (s.index + 1))
    (hturn : ∀ turn ∈ p.turn?, turn = s.index)
    (hweight : rule.weight + p.weight < s.control.weight + 17) :
    Move ts s (s.call began p rule (s.index + 1)) := by
  have hbegan : began ≤ s.index := hs.began_le_of_active hactive
  have hlt := le_length_of_getElem? ht
  refine of_call hactive (Nat.le_succ _) hlt hready (.inl (Nat.lt_succ_of_le hbegan)) ?_ (by omega)
  intro turn hmem
  rw [hturn turn hmem]
  exact Nat.lt_succ_self _

theorem of_goOnNext (ht : ts[s.index]? = some t)
    (hactive : s.control.activation? s.index = some ⟨began, point.rule⟩)
    (hready : (Control.inside began point).Ready ts (s.index + 1))
    (hweight : point.weight < s.control.weight + 17) :
    Move ts s (.ok (s.goOn began point (s.index + 1))) := by
  have hlt := le_length_of_getElem? ht
  refine .goOn (fun a ha => ?_) (Nat.le_succ _) hlt hready ?_
  · obtain rfl := Option.some.inj ha
    exact hactive
  · rw [Control.weight_inside]
    omega

theorem of_goOnHere (hs : s.Sound ts)
    (hactive : s.control.activation? s.index = some ⟨began, point.rule⟩)
    (hready : (Control.inside began point).Ready ts s.index)
    (hweight : point.weight < s.control.weight) :
    Move ts s (.ok (s.goOn began point s.index)) := by
  refine .goOn (fun a ha => ?_) (Nat.le_refl _) hs.index_le hready (Nat.add_lt_add_left hweight _)
  obtain rfl := Option.some.inj ha
  exact hactive

theorem of_giveNext (ht : ts[s.index]? = some t) (e : Expr) :
    Move ts s (.ok (s.give e (s.index + 1))) := by
  have hlt := le_length_of_getElem? ht
  refine .goOn ?_ (Nat.le_succ _) hlt trivial ?_
  · exact fun a ha => absurd ha (Option.not_mem_none a)
  · rw [Control.weight_give]
    omega

theorem of_giveHere (hs : s.Sound ts) (hweight : 0 < s.control.weight) (e : Expr) :
    Move ts s (.ok (s.give e s.index)) := by
  refine .goOn ?_ (Nat.le_refl _) hs.index_le trivial (Nat.add_lt_add_left hweight _)
  rintro a ⟨⟩

theorem of_giveClosed (hs : s.Sound ts) (e : Expr) (missing : Expected) :
    Move ts s (s.giveClosed (Token.marked ts) e missing) := by
  simp only [State.giveClosed, look_marked hs.index_le, bind, Except.bind]
  split
  · rename_i hclosing
    rw [advance_marked hclosing]
    exact of_giveNext hclosing e
  · exact of_refuse hs missing

theorem of_addressOf {text : String} {next : Address → Except Halt State}
    (h : ∀ a, Move ts s (next a)) : Move ts s (s.addressOf text >>= next) := by
  unfold State.addressOf
  cases Address.read text with
  | ok a => exact h a
  | error => exact .ends trivial

theorem of_enterAtom (hs : s.Sound ts) (hc : s.control = .enter .atom)
    (ht : ts[s.index]? = some t) :
    Move ts s (s.enterAtom (Token.marked ts) t) := by
  have hactive : s.control.activation? s.index = some ⟨s.index, .atom⟩ := by rw [hc]; rfl
  have hcall {name : String} (hname : functionName? t = some name)
      (hopening : ts[s.index + 1]? = some .opening) :
      Move ts s (s.call s.index .called .call s.index) :=
    of_callHere hs hactive ⟨⟨t, name, ht, hname⟩, hopening⟩ (Nat.lt_succ_self _) rfl (by simp [hc])
  unfold State.enterAtom
  cases t with
  | number value =>
    rw [advance_marked ht]
    exact of_giveNext ht _
  | opening =>
    rw [advance_marked ht]
    exact of_callNext hs ht hactive trivial (Pause.forall_turn rfl) (by simp [hc])
  | name text =>
    simp only [peek_marked hs.index_le, bind, Except.bind]
    split
    · rename_i hopening
      exact hcall rfl hopening
    · exact of_refuse hs _
  | reference text =>
    simp only [peek_marked hs.index_le, advance_marked ht, bind, Except.bind]
    split
    · rename_i hopening
      exact hcall rfl hopening
    · exact .ends trivial
    · exact of_addressOf fun a => of_giveNext ht _
  | _ => exact of_refuse hs _

theorem of_enter (hs : s.Sound ts) (hc : s.control = .enter rule) :
    Move ts s (s.enter (Token.marked ts) rule) := by
  have hactive : s.control.activation? s.index = some ⟨s.index, rule⟩ := by rw [hc]; rfl
  have hready := hs.ready
  rw [hc] at hready
  cases rule with
  | whole => exact of_callHere hs hactive trivial (by decide) rfl (by simp [hc])
  | chain c => cases c <;>
      exact of_callHere hs hactive trivial (by decide) rfl (by simp [hc, Chain.operand])
  | factor =>
    simp only [State.enter, look_marked hs.index_le, bind, Except.bind]
    split
    · rename_i hminus
      rw [advance_marked hminus]
      exact of_callNext hs hminus hactive trivial (Pause.forall_turn rfl) (by simp [hc])
    · exact of_callHere hs hactive trivial (by decide) rfl (by simp [hc])
  | atom =>
    simp only [State.enter, look_marked hs.index_le, bind, Except.bind]
    split
    · rename_i t ht
      exact of_enterAtom hs hc ht
    · exact of_refuse hs _
  | call =>
    obtain ⟨⟨t, name, ht, hname⟩, hopening⟩ := hready
    simp only [State.enter, look_marked hs.index_le, ht, advance_marked ht, bind, Except.bind,
      Option.bind, hname]
    exact of_goOnNext ht hactive ⟨Nat.lt_succ_self _, hopening⟩ (by simp [hc])
  | argument =>
    have hsum : Move ts s (s.call s.index .value (.chain .sum) s.index) :=
      of_callHere hs hactive trivial (by decide) rfl (by simp [hc])
    simp only [State.enter, look_marked hs.index_le, peek_marked hs.index_le, bind, Except.bind]
    split
    · rename_i text ht
      split
      · rename_i hcolon
        rw [advance_marked ht]
        exact of_addressOf fun start => of_goOnNext ht hactive hcolon (by simp [hc])
      · exact hsum
    · exact hsum

theorem of_proceed (hs : s.Sound ts) (hc : s.control = .inside began point) :
    Move ts s (s.proceed (Token.marked ts) began point) := by
  have hactive : s.control.activation? s.index = some ⟨began, point.rule⟩ := by rw [hc]; rfl
  have hready := hs.ready
  rw [hc] at hready
  cases point with
  | finish e =>
    simp only [State.proceed, look_marked hs.index_le, bind, Except.bind]
    split
    · exact of_giveHere hs (by simp [hc]) e
    · exact of_refuse hs _
  | chain c left =>
    simp only [State.proceed, look_marked hs.index_le, bind, Except.bind]
    split
    · rename_i op hop
      obtain ⟨t, ht, -⟩ := Option.bind_eq_some_iff.1 hop
      rw [advance_marked ht]
      cases c <;>
        exact of_callNext hs ht hactive trivial (fun _ h => (Option.some.inj h).symm)
          (by simp [hc, Chain.operand])
    · exact of_giveHere hs (by simp [hc]) left
  | close e => exact of_giveClosed hs e _
  | named name =>
    obtain ⟨hlt, hopening⟩ := hready
    simp only [State.proceed, advance_marked hopening, bind, Except.bind]
    exact of_goOnNext hopening hactive (Nat.lt_succ_of_lt hlt) (by simp [hc])
  | opened name =>
    have hlt : began < s.index := hready
    simp only [State.proceed, look_marked hs.index_le, bind, Except.bind]
    split
    · exact of_goOnHere hs hactive trivial (by simp [hc])
    · exact of_call hactive (Nat.le_refl _) hs.index_le trivial (.inl hlt) (Pause.forall_turn rfl)
        (by simp [hc])
  | arguments name args =>
    simp only [State.proceed, look_marked hs.index_le, bind, Except.bind]
    split
    · rename_i hcomma
      rw [advance_marked hcomma]
      exact of_callNext hs hcomma hactive trivial (fun _ h => (Option.some.inj h).symm)
        (by simp [hc])
    · exact of_goOnHere hs hactive trivial (by simp [hc])
  | ended name args => exact of_giveClosed hs _ _
  | corner start =>
    have hcolon : ts[s.index]? = some .colon := hready
    simp only [State.proceed, advance_marked hcolon, bind, Except.bind]
    exact of_goOnNext hcolon hactive trivial (by simp [hc])
  | colon start =>
    simp only [State.proceed, look_marked hs.index_le, bind, Except.bind]
    split
    · rename_i text ht
      rw [advance_marked ht]
      exact of_addressOf fun stop => of_goOnNext ht hactive trivial (by simp [hc])
    · exact of_refuse hs _
  | corners r =>
    simp only [State.proceed, look_marked hs.index_le, bind, Except.bind]
    split
    · exact .ends trivial
    · split
      · exact of_giveHere hs (by simp [hc]) _
      · exact of_refuse hs _

theorem of_step (hs : s.Sound ts) : Move ts s (step (Token.marked ts) s) := by
  unfold step
  split
  · rename_i rule hc
    exact of_enter hs hc
  · rename_i began point hc
    exact of_proceed hs hc
  · rename_i e hc
    split
    · exact .ends trivial
    · rename_i f stack hstack
      exact .resume hc hstack

end Steps

end Move

/-! ## Runs -/

/-- A run of the walk keeps it in order, does not go back, and uses up steps. -/
theorem State.Sound.of_run {n : Nat} (hs : s.Sound ts) (h : run (Token.marked ts) n s = .ok s') :
    s'.Sound ts ∧ s.index ≤ s'.index ∧ s'.potential ts + n ≤ s.potential ts := by
  induction n generalizing s with
  | zero =>
    obtain rfl := Except.ok.inj h
    exact ⟨hs, Nat.le_refl _, Nat.le_refl _⟩
  | succ n ih =>
    obtain ⟨mid, hstep, hrun⟩ := exists_of_bind_eq_ok h
    have hmove : Move ts s (.ok mid) := hstep ▸ Move.of_step hs
    obtain ⟨hs', hle, hpotential⟩ := ih (hmove.sound hs) hrun
    have hlt := hmove.potential_lt
    exact ⟨hs', Nat.le_trans hmove.index_le hle, by omega⟩

theorem run_add_error {items : List (Option Token)} {m : Nat} {h : Halt} (n : Nat)
    (hrun : run items m s = .error h) : run items (m + n) s = .error h := by
  rw [run_add, hrun]
  rfl

/-- The walk comes to its end within the steps that are left. -/
theorem State.Sound.run_potential {h : Halt} (hs : s.Sound ts)
    (hends : Ends (Token.marked ts) s h) :
    run (Token.marked ts) (s.potential ts + 1) s = .error h := by
  cases hrun : run (Token.marked ts) (s.potential ts + 1) s with
  | ok s' =>
    have hle := (hs.of_run hrun).2.2
    omega
  | error h' =>
    -- both ends are those of a run that is long enough for either
    obtain ⟨n, hn⟩ := hends
    have hlong := run_add_error n hrun
    rw [Nat.add_comm, run_add_error _ hn] at hlong
    exact hlong.symm

/-! ## Whole lists -/

/-- The walk over the tokens of a list and its end mark looks at no item that is not there, does not
go back and never passes the mark. A turn of a loop has passed a token before it ends or before
anything within it is called, and so has a function before a function of the same rule is called
within it. So the walk ends after a number of steps that is linear in the number of tokens, and it
ends like the parser. In a tree to which it comes, ranges are arguments of calls, and everything is
made of the tokens. -/
theorem walk_is_safe (room : Nat) (ts : List Token) :
    (∀ n s, run (Token.marked ts) n (.start room) = .ok s →
      s.index ≤ ts.length ∧
      (∀ s', step (Token.marked ts) s = .ok s' → s.index ≤ s'.index) ∧
      (∀ h, step (Token.marked ts) s = .error h → h.IsResult) ∧
      (∀ f ∈ s.stack, ∀ turn ∈ f.pause.turn?, turn < s.index) ∧
      ∀ rule, s.control = .enter rule → ∀ f ∈ s.stack, f.pause.rule = rule → f.began < s.index) ∧
    run (Token.marked ts) (17 * ts.length + 15) (.start room) =
      .error (.ofResult ts.length (parse room ts)) ∧
    ∀ e, parse room ts = .ok e → e.IsOperand ∧ ∀ node ∈ e.nodes, node.IsMadeOf ts := by
  have hstart := State.sound_start room ts
  refine ⟨fun n s hrun => ?_, ?_, fun e he => ?_⟩
  · obtain ⟨hs, -⟩ := hstart.of_run hrun
    have hmove := Move.of_step hs
    refine ⟨hs.index_le, fun s' hstep => ?_, fun h hstep => ?_, hs.turn_lt,
      fun rule hc f hf hrule => hs.began_lt hc hf hrule⟩
    · rw [hstep] at hmove
      exact hmove.index_le
    · rw [hstep] at hmove
      cases hmove with
      | ends hresult => exact hresult
  · exact hstart.run_potential (ends_start room ts)
  · obtain ⟨n, -, hsum⟩ := parse_eq_ok_iff.1 he
    exact hsum.isOperandOf (List.Subset.refl ts)

/-- A factor within a factor, and an argument that is a range. -/
theorem walk_is_safe_negatedCall :
    let ts : List Token := [.minus, .name "Sum", .opening, .reference "a1", .colon, .reference "B2",
      .comma, .number .one, .closing]
    let e : Expr := .negate (.call "sum" [.range ⟨⟨0, 0⟩, ⟨1, 1⟩⟩, .number .one])
    (∃ s, run (Token.marked ts) 4 (.start maxNesting) = .ok s ∧ s.control = .enter .factor ∧
      ⟨0, .negated⟩ ∈ s.stack ∧ 0 < s.index) ∧
    run (Token.marked ts) 168 (.start maxNesting) = .error (.done e) ∧
    (Expr.range ⟨⟨0, 0⟩, ⟨1, 1⟩⟩).IsMadeOf ts := by
  intro ts e
  obtain ⟨hrun, hend, htree⟩ := walk_is_safe maxNesting ts
  have hrange : IsArgument 0 [.reference "a1", .colon, .reference "B2"]
      (.range ⟨⟨0, 0⟩, ⟨1, 1⟩⟩) := .range rfl rfl
  have hone : IsSum 0 [.number .one] (.number .one) := .product (.factor (.atom .number))
  have hcall : IsAtom _ (.name "Sum" :: .opening :: _ ++ [.closing]) (.call "sum" _) :=
    .call rfl (.more hrange (.last (.sum hone)))
  have he : parse maxNesting ts = .ok e :=
    parse_eq_ok_iff.2 ⟨_, by decide, .product (.factor (.negate (.atom hcall)))⟩
  rw [he] at hend
  refine ⟨⟨_, rfl, rfl, List.mem_cons_self, ?_⟩, hend, (htree e he).2 _ ?_⟩
  · exact (hrun 4 _ rfl).2.2.2.2 .factor rfl ⟨0, .negated⟩ List.mem_cons_self rfl
  · exact .tail _ (.tail _ (.head _))

end DecimalSheet.Walk
