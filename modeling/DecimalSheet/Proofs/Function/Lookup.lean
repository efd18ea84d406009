import DecimalSheet.Function.Registry
import Mathlib.Data.List.Basic
import Mathlib.Data.List.Induction

/-!
# Functions that are found

A function that is found in the registry of some collections is a member of one of them, called as
its mark asks for. So what all members have when they are called that way, the functions of the
registry have.

## Main definitions

* `IsLastWith P l x`: the last member of a list with a property
* `Collection.Has`, `Collection.Marks`: what stands under an attribute of a collection, and the
  functions in it that are marked with a name

## Main results

* `Collection.getElem?_members`: what is kept under an attribute
* `Collection.forall_mem_functions`: what the functions of a collection have
* `Registry.getElem?_foldl_putNew`: of several entries under a name the first one counts
* `Registry.forall_lookup_ofCollections`: what the functions of a registry have
* `Registry.lookup_register`: what is found after a registration
-/

namespace DecimalSheet

/-! ## The last member with a property -/

section Last

variable {α : Type} {P : α → Prop} {l : List α} {x y : α}

/-- The last member of a list with a property. -/
def IsLastWith (P : α → Prop) (l : List α) (x : α) : Prop :=
  ∃ before after, l = before ++ x :: after ∧ P x ∧ ∀ y ∈ after, ¬P y

theorem not_isLastWith_nil : ¬IsLastWith P [] x := by
  rintro ⟨before, after, h, -⟩
  simp at h

theorem isLastWith_append_singleton_of_pos (hy : P y) : IsLastWith P (l ++ [y]) x ↔ x = y := by
  constructor
  · rintro ⟨before, after, h, -, hafter⟩
    rcases List.eq_nil_or_concat' after with rfl | ⟨after, last, rfl⟩
    · exact (List.cons.inj (List.append_inj' h rfl).2).1.symm
    · -- the member that has been added would come after the last one
      rw [← List.cons_append, ← List.append_assoc] at h
      obtain ⟨-, hlast⟩ := List.append_inj' h rfl
      exact absurd ((List.cons.inj hlast).1 ▸ hy) (hafter last (by simp))
  · rintro rfl
    exact ⟨l, [], rfl, hy, List.forall_mem_nil _⟩

theorem isLastWith_append_singleton_of_neg (hy : ¬P y) :
    IsLastWith P (l ++ [y]) x ↔ IsLastWith P l x := by
  constructor
  · rintro ⟨before, after, h, hx, hafter⟩
    rcases List.eq_nil_or_concat' after with rfl | ⟨after, last, rfl⟩
    · obtain ⟨-, hlast⟩ := List.append_inj' h rfl
      exact absurd ((List.cons.inj hlast).1 ▸ hx) hy
    · rw [← List.cons_append, ← List.append_assoc] at h
      obtain ⟨hl, -⟩ := List.append_inj' h rfl
      exact ⟨before, after, hl, hx, fun z hz => hafter z (List.mem_append_left _ hz)⟩
  · rintro ⟨before, after, rfl, hx, hafter⟩
    refine ⟨before, after ++ [y], by simp, hx, List.forall_mem_append.2 ⟨hafter, ?_⟩⟩
    exact List.forall_mem_singleton.2 hy

theorem exists_isLastWith (h : ∃ x ∈ l, P x) : ∃ x, IsLastWith P l x := by
  induction l using List.reverseRecOn with
  | nil => simp at h
  | append_singleton l y ih =>
    by_cases hy : P y
    · exact ⟨y, (isLastWith_append_singleton_of_pos hy).2 rfl⟩
    · obtain ⟨x, hx, hPx⟩ := h
      rcases List.mem_append.1 hx with hx | hx
      · obtain ⟨x, hlast⟩ := ih ⟨x, hx, hPx⟩
        exact ⟨x, (isLastWith_append_singleton_of_neg hy).2 hlast⟩
      · exact absurd (List.mem_singleton.1 hx ▸ hPx) hy

end Last

/-! ## Collections -/

namespace Collection

variable {P : String → Reducer → Prop} {c : Collection} {key name : String}
  {x : Option GridFunction} {entry : String × Reducer}

/-- The member has been put under an attribute. -/
def IsUnder (key : String) (m : String × Option GridFunction) : Prop := m.1 = key

/-- The member that stands under an attribute is the last one that has been put there. -/
def Has (c : Collection) (key : String) (x : Option GridFunction) : Prop :=
  IsLastWith (IsUnder key) c (key, x)

/-- Under an attribute is kept what stands there. -/
theorem getElem?_members : c.members[key]? = some x ↔ c.Has key x := by
  induction c using List.reverseRecOn with
  | nil => exact iff_of_false (by simp [members]) not_isLastWith_nil
  | append_singleton c m ih =>
    have hmembers : members (c ++ [m]) = (members c).insert m.1 m.2 := by
      rw [members, List.foldl_append]
      rfl
    rw [hmembers, Std.TreeMap.getElem?_insert]
    simp only [Std.LawfulEqCmp.compare_eq_iff_eq]
    split
    · rename_i hm
      have hunder : IsUnder key m := hm
      rw [Has, isLastWith_append_singleton_of_pos hunder, Option.some_inj, Prod.ext_iff]
      exact ⟨fun hx => ⟨hm.symm, hx.symm⟩, fun hx => hx.2.symm⟩
    · rename_i hm
      have hunder : ¬IsUnder key m := hm
      rw [ih, Has, Has, isLastWith_append_singleton_of_neg hunder]

/-- A function stands under an attribute, marked with a name and with whether it refuses to be
called on no values. -/
structure Marks (c : Collection) (key name : String) (f : GridFunction) (refuses : Bool) :
    Prop where
  has : c.Has key (some f)
  mark : f.mark = some ⟨name, refuses⟩

/-- The name and the reducer that a member has among the functions, if it is marked. -/
def reducerOf? (member : String × Option GridFunction) : Option (String × Reducer) := do
  let f ← member.2
  let m ← f.mark
  some (m.name, m.apply f.run)

theorem reducerOf?_eq_some_iff {member : String × Option GridFunction} :
    reducerOf? member = some entry ↔
      ∃ f refuses, member.2 = some f ∧ f.mark = some ⟨entry.1, refuses⟩ ∧
        entry.2 = (Mark.mk entry.1 refuses).apply f.run := by
  unfold reducerOf?
  constructor
  · intro h
    obtain ⟨f, hf, h⟩ := Option.bind_eq_some_iff.1 h
    obtain ⟨m, hm, h⟩ := Option.bind_eq_some_iff.1 h
    obtain rfl := Option.some.inj h
    exact ⟨f, m.refusesEmpty, hf, hm, rfl⟩
  · rintro ⟨f, refuses, hf, hm, hentry⟩
    rw [hf, Option.bind_eq_bind, Option.bind_some, hm, Option.bind_eq_bind, Option.bind_some,
      ← hentry]

theorem mem_members_iff : (key, x) ∈ c.members.toList ↔ c.Has key x :=
  Std.TreeMap.mem_toList_iff_getElem?_eq_some.trans getElem?_members

/-- The functions that are marked with a name are the entries under this name. -/
theorem exists_marks_iff {g : Reducer} :
    (∃ f refuses, c.Marks key name f refuses ∧ g = (Mark.mk name refuses).apply f.run) ↔
      ∃ x, (key, x) ∈ c.members.toList ∧ reducerOf? (key, x) = some (name, g) := by
  constructor
  · rintro ⟨f, refuses, ⟨hhas, hmark⟩, hg⟩
    exact ⟨some f, mem_members_iff.2 hhas, reducerOf?_eq_some_iff.2 ⟨f, refuses, rfl, hmark, hg⟩⟩
  · rintro ⟨x, hmem, hentry⟩
    obtain ⟨f, refuses, rfl, hmark, hg⟩ := reducerOf?_eq_some_iff.1 hentry
    exact ⟨f, refuses, ⟨mem_members_iff.1 hmem, hmark⟩, hg⟩

/-- The functions of a collection have what its members have when they are called as their marks
ask for, under the names on their marks. -/
theorem forall_mem_functions
    (hc : ∀ m ∈ c, ∀ f, m.2 = some f →
      ∀ mark, f.mark = some mark → P mark.name (mark.apply f.run)) :
    ∀ entry ∈ c.functions, P entry.1 entry.2 := by
  intro entry h
  obtain ⟨⟨key, x⟩, hmember, hentry⟩ := List.mem_filterMap.1 h
  obtain ⟨f, refuses, rfl, hmark, hf⟩ := reducerOf?_eq_some_iff.1 hentry
  -- What is kept under an attribute is a member of the collection.
  obtain ⟨before, after, rfl, -⟩ := mem_members_iff.1 hmember
  exact hf ▸ hc (key, some f) (by simp) f rfl _ hmark

end Collection

/-! ## Registries -/

namespace Registry

variable {P : String → Reducer → Prop} {name : String}

/-- A new entry counts if there is none under its name. -/
theorem getElem?_putNew (r : Registry) (entry : String × Reducer) :
    (r.putNew entry).functions[name]? =
      r.functions[name]?.or (if entry.1 = name then some entry.2 else none) := by
  rw [putNew, Std.TreeMap.getElem?_insertIfNew]
  simp only [Std.LawfulEqCmp.compare_eq_iff_eq]
  cases hname : r.functions[name]? with
  | some g =>
    have hmem : name ∈ r.functions := Std.TreeMap.mem_iff_isSome_getElem?.2 (by simp [hname])
    rw [if_neg fun h => h.2 (h.1 ▸ hmem), Option.some_or]
  | none =>
    have hmem : name ∉ r.functions := by
      rw [Std.TreeMap.mem_iff_isSome_getElem?, hname]
      decide
    rw [Option.none_or]
    by_cases heq : entry.1 = name
    · rw [if_pos ⟨heq, heq ▸ hmem⟩, if_pos heq]
    · rw [if_neg fun h => heq h.1, if_neg heq]

/-- Of several entries under one name the first one counts, if there was none before. -/
theorem getElem?_foldl_putNew (entries : List (String × Reducer)) (r : Registry) :
    (entries.foldl putNew r).functions[name]? =
      r.functions[name]?.or ((entries.find? fun entry => entry.1 = name).map (·.2)) := by
  induction entries generalizing r with
  | nil => simp
  | cons entry entries ih =>
    rw [List.foldl_cons, ih, getElem?_putNew, Option.or_assoc, List.find?_cons]
    by_cases heq : entry.1 = name <;> simp [heq]

/-- The functions that are found in the registry of some collections have what the members of the
collections have, under their names in lower case. -/
theorem forall_lookup_ofCollections {cs : List Collection} (h : ∀ c ∈ cs, ∀ m ∈ c, ∀ f,
      m.2 = some f → ∀ mark, f.mark = some mark → P mark.name (mark.apply f.run)) :
    ∀ name f, (ofCollections cs).lookup name = .ok f → P (Text.lower name) f := by
  intro name f hf
  have hfound : (ofCollections cs).functions[Text.lower name]? = some f := by
    unfold lookup find? at hf
    generalize (ofCollections cs).functions[Text.lower name]? = x at hf
    cases x with
    | none => cases hf
    | some g => exact congrArg some (Except.ok.inj hf)
  have hnone : empty.functions[Text.lower name]? = none := by simp [empty]
  rw [ofCollections, getElem?_foldl_putNew, hnone, Option.none_or,
    Option.map_eq_some_iff] at hfound
  -- The entry under the name is one of a collection.
  obtain ⟨entry, hfind, rfl⟩ := hfound
  obtain ⟨hname, -⟩ := List.find?_eq_some_iff_append.1 hfind
  obtain ⟨c, hc, hmem⟩ := List.mem_flatMap.1 (List.mem_of_find?_eq_some hfind)
  exact of_decide_eq_true hname ▸ Collection.forall_mem_functions (h c hc) entry hmem

/-- A function that has been registered is found under its name in any letter case. -/
theorem lookup_register (r : Registry) (name other : String) (f : GridFunction)
    (refusesEmpty : Option Bool) :
    (r.register name f refusesEmpty).lookup other =
      if Text.lower name = Text.lower other then
        .ok ((Mark.mk (Text.lower name)
          (refusesEmpty.getD ((f.mark.map (·.refusesEmpty)).getD false))).apply f.run)
      else r.lookup other := by
  unfold lookup register
  rw [find?_put]
  split <;> rfl

end Registry

end DecimalSheet
