import DecimalSheet.Proofs.Except
import DecimalSheet.Proofs.Function.Lookup
import DecimalSheet.Proofs.Text.Character
import Mathlib.Order.Compare

/-!
# Which function a name stands for

A name stands for one function, whatever letter case it is written in: the one of the last
registration under the name, or else that of the first collection in which a function is marked
with it, and there the one whose attribute comes first. The standard functions are the last
collection. A function that refuses to be called on no values fails there with its registered
name, and is called unchanged on all others.

## Main definitions

* `Registration`, `Registry.registerAll`: a call that registers a function, and a sequence of them
* `Plugin.named`: the plugins with some names, in their order
* `Collection.IsFirstMarked`: the first function in a collection that is marked with a name
* `Registry.Defines`: a name stands for a reducer, which may refuse to be called on no values
* `Reducer.IsCallOf`: a function calls a reducer, except on no values if that is refused

## Main results

* `Collection.find?_functions_eq_some_iff`: the first function of a collection with a name
* `Registry.getElem?_ofCollections`, `Registry.getElem?_registerAll`: what is kept under a name
* `Registry.lookup_by_precedence`: all of this together
-/

namespace DecimalSheet

/-! ## Collections -/

namespace Collection

variable {c : Collection} {name : String} {entry : String × Reducer}

/-- Of the functions that are marked with a name, this one has the first attribute. -/
structure IsFirstMarked (c : Collection) (key name : String) (f : GridFunction)
    (refuses : Bool) : Prop where
  marks : c.Marks key name f refuses
  first : ∀ key' f' refuses', c.Marks key' name f' refuses' → ¬key' < key

theorem reducerOf?_any_iff {member : String × Option GridFunction} :
    (reducerOf? member).any (fun entry => entry.1 = name) = true ↔
      ∃ g, reducerOf? member = some (name, g) := by
  rw [Option.any_eq_true]
  constructor
  · rintro ⟨entry, hentry, hname⟩
    exact ⟨entry.2, hentry.trans (congrArg some (Prod.ext (of_decide_eq_true hname) rfl))⟩
  · rintro ⟨g, hentry⟩
    exact ⟨_, hentry, decide_eq_true rfl⟩

/-- The first function of a collection with a name is the one with the first attribute. -/
theorem find?_functions_eq_some_iff :
    c.functions.find? (fun entry => entry.1 = name) = some entry ↔
      ∃ key f refuses, c.IsFirstMarked key name f refuses ∧
        entry = (name, (Mark.mk name refuses).apply f.run) := by
  have hordered := c.members.ordered_keys_toList
  show (c.members.toList.filterMap reducerOf?).find? _ = _ ↔ _
  rw [List.find?_filterMap, Option.bind_eq_some_iff]
  constructor
  · rintro ⟨⟨key, x⟩, hfind, hentry⟩
    obtain ⟨hname, before, after, hmembers, hbefore⟩ := List.find?_eq_some_iff_append.1 hfind
    obtain ⟨g, hg⟩ := reducerOf?_any_iff.1 hname
    obtain rfl := Option.some.inj (hentry.symm.trans hg)
    have hmem : (key, x) ∈ c.members.toList := by simp [hmembers]
    obtain ⟨f, refuses, hmarks, rfl⟩ := exists_marks_iff.2 ⟨x, hmem, hg⟩
    refine ⟨key, f, refuses, ⟨hmarks, fun key' f' refuses' hmarks' hlt => ?_⟩, rfl⟩
    obtain ⟨x', hmem, hg'⟩ := exists_marks_iff.1 ⟨f', refuses', hmarks', rfl⟩
    rw [hmembers, List.pairwise_append, List.pairwise_cons] at hordered
    rw [hmembers, List.mem_append, List.mem_cons] at hmem
    -- A smaller attribute stands before, where no function has the name.
    rcases hmem with hmem | heq | hmem
    · have hnone := hbefore _ hmem
      rw [reducerOf?_any_iff.2 ⟨_, hg'⟩] at hnone
      cases hnone
    · obtain ⟨rfl, -⟩ := Prod.mk.inj heq
      exact lt_irrefl _ hlt
    · have hgt := hordered.2.1.1 _ hmem
      exact lt_asymm hlt (compareOfLessAndEq_eq_lt.1 hgt)
  · rintro ⟨key, f, refuses, ⟨hmarks, hfirst⟩, rfl⟩
    obtain ⟨x, hmem, hg⟩ := exists_marks_iff.1 ⟨f, refuses, hmarks, rfl⟩
    obtain ⟨before, after, hmembers⟩ := List.append_of_mem hmem
    refine ⟨(key, x), List.find?_eq_some_iff_append.2
      ⟨reducerOf?_any_iff.2 ⟨_, hg⟩, before, after, hmembers, fun m hm => ?_⟩, hg⟩
    rw [Bool.not_eq_true', ← Bool.not_eq_true, reducerOf?_any_iff]
    rintro ⟨g', hg'⟩
    have hmem' : m ∈ c.members.toList := hmembers ▸ List.mem_append_left _ hm
    obtain ⟨f', refuses', hmarks', -⟩ := exists_marks_iff.2 ⟨m.2, hmem', hg'⟩
    rw [hmembers, List.pairwise_append] at hordered
    have hlt := hordered.2.2 m hm (key, x) List.mem_cons_self
    exact hfirst m.1 f' refuses' hmarks' (compareOfLessAndEq_eq_lt.1 hlt)

theorem find?_functions_eq_none_iff :
    c.functions.find? (fun entry => entry.1 = name) = none ↔
      ∀ key f refuses, ¬c.Marks key name f refuses := by
  show (c.members.toList.filterMap reducerOf?).find? _ = _ ↔ _
  rw [List.find?_eq_none]
  constructor
  · intro hnone key f refuses hmarks
    obtain ⟨x, hmem, hg⟩ := exists_marks_iff.1 ⟨f, refuses, hmarks, rfl⟩
    exact hnone _ (List.mem_filterMap.2 ⟨_, hmem, hg⟩) (decide_eq_true rfl)
  · intro hnone entry hmem hname
    obtain ⟨⟨key, x⟩, hmem, hg⟩ := List.mem_filterMap.1 hmem
    obtain rfl : entry.1 = name := of_decide_eq_true hname
    obtain ⟨f, refuses, hmarks, -⟩ := exists_marks_iff.2 ⟨x, hmem, hg⟩
    exact hnone key f refuses hmarks

end Collection

/-! ## Registrations -/

/-- A call that registers a function under a name. -/
structure Registration where
  name : String
  function : GridFunction
  /-- Whether the function refuses to be called on no values, if this is told. -/
  refusesEmpty : Option Bool

/-- The function refuses to be called on no values: as it is told, or else as it is marked. -/
def Registration.refuses (call : Registration) : Bool :=
  call.refusesEmpty.getD ((call.function.mark.map (·.refusesEmpty)).getD false)

/-- The call registers its function under a name in lower case. -/
def Registration.IsFor (name : String) (call : Registration) : Prop := Text.lower call.name = name

instance (name : String) (call : Registration) : Decidable (call.IsFor name) :=
  inferInstanceAs (Decidable (_ = _))

namespace Registry

variable {cs : List Collection} {calls : List Registration} {name : String} {r : Registry}

/-- The registry after some calls. -/
def registerAll (r : Registry) (calls : List Registration) : Registry :=
  calls.foldl (fun r call => r.register call.name call.function call.refusesEmpty) r

/-- A name in lower case stands for a reducer, which may refuse to be called on no values: for that
of the last registration, or else for that of the first function in the first collection where one
is marked with the name. -/
inductive Defines (cs : List Collection) (calls : List Registration) (name : String) :
    Reducer → Bool → Prop
  | registered {call : Registration} (h : IsLastWith (Registration.IsFor name) calls call) :
    Defines cs calls name call.function.run call.refuses
  | marked {before after : List Collection} {c : Collection} {key : String} {f : GridFunction}
    {refuses : Bool} (hcalls : ∀ call ∈ calls, ¬call.IsFor name) (hcs : cs = before ++ c :: after)
    (hbefore : ∀ c' ∈ before, ∀ key f refuses, ¬c'.Marks key name f refuses)
    (hfirst : c.IsFirstMarked key name f refuses) : Defines cs calls name f.run refuses

/-- Under a name is kept the first function of the first collection that has one. -/
theorem getElem?_ofCollections (cs : List Collection) :
    (ofCollections cs).functions[name]? =
      (cs.findSome? fun c => c.functions.find? fun entry => entry.1 = name).map (·.2) := by
  rw [ofCollections, getElem?_foldl_putNew, List.find?_flatMap]
  simp [empty]

theorem getElem?_register (r : Registry) (call : Registration) :
    (r.register call.name call.function call.refusesEmpty).functions[name]? =
      if call.IsFor name then some ((Mark.mk name call.refuses).apply call.function.run)
      else r.functions[name]? := by
  rw [register, put, Std.TreeMap.getElem?_insert]
  simp only [Std.LawfulEqCmp.compare_eq_iff_eq]
  split
  · rename_i h
    have hfor : call.IsFor name := h
    rw [if_pos hfor, h]
    rfl
  · rename_i h
    have hfor : ¬call.IsFor name := h
    rw [if_neg hfor]

theorem registerAll_append_singleton (r : Registry) (calls : List Registration)
    (call : Registration) :
    r.registerAll (calls ++ [call]) =
      (r.registerAll calls).register call.name call.function call.refusesEmpty := by
  rw [registerAll, List.foldl_append]
  rfl

/-- After some calls, what is kept under a name is what the last of them for it has registered, and
what was kept before if there is none. -/
theorem getElem?_registerAll {g : Reducer} :
    (r.registerAll calls).functions[name]? = some g ↔
      (∃ call, IsLastWith (Registration.IsFor name) calls call ∧
        g = (Mark.mk name call.refuses).apply call.function.run) ∨
      (∀ call ∈ calls, ¬call.IsFor name) ∧ r.functions[name]? = some g := by
  induction calls using List.reverseRecOn with
  | nil => simp [registerAll, not_isLastWith_nil]
  | append_singleton calls call ih =>
    rw [registerAll_append_singleton, getElem?_register]
    by_cases hcall : call.IsFor name
    · simp [hcall, isLastWith_append_singleton_of_pos hcall, eq_comm]
    · simp [hcall, isLastWith_append_singleton_of_neg hcall, ih, or_imp, forall_and]

/-- Under a name is kept the function for which it stands, called as it is asked for. -/
theorem getElem?_eq_some_iff {g : Reducer} :
    ((ofCollections cs).registerAll calls).functions[name]? = some g ↔
      ∃ run refuses, Defines cs calls name run refuses ∧
        g = (Mark.mk name refuses).apply run := by
  rw [getElem?_registerAll, getElem?_ofCollections]
  constructor
  · rintro (⟨call, hlast, rfl⟩ | ⟨hcalls, hfound⟩)
    · exact ⟨_, _, .registered hlast, rfl⟩
    · obtain ⟨entry, hentry, rfl⟩ := Option.map_eq_some_iff.1 hfound
      obtain ⟨before, c, after, hcs, hfind, hbefore⟩ := List.findSome?_eq_some_iff.1 hentry
      obtain ⟨key, f, refuses, hfirst, rfl⟩ := Collection.find?_functions_eq_some_iff.1 hfind
      exact ⟨_, _, .marked hcalls hcs
        (fun c' hc' => Collection.find?_functions_eq_none_iff.1 (hbefore c' hc')) hfirst, rfl⟩
  · rintro ⟨run, refuses, hdefines, rfl⟩
    cases hdefines with
    | @registered call hlast => exact .inl ⟨call, hlast, rfl⟩
    | @marked before after c key f _ hcalls hcs hbefore hfirst =>
      refine .inr ⟨hcalls, Option.map_eq_some_iff.2 ⟨(name, _), ?_, rfl⟩⟩
      exact List.findSome?_eq_some_iff.2 ⟨before, c, after, hcs,
        Collection.find?_functions_eq_some_iff.2 ⟨key, f, refuses, hfirst, rfl⟩,
        fun c' hc' => Collection.find?_functions_eq_none_iff.2 (hbefore c' hc')⟩

theorem mem_names_iff_getElem? {r : Registry} :
    name ∈ r.names ↔ ∃ g, r.functions[name]? = some g := by
  rw [names, Std.TreeMap.mem_keys, Std.TreeMap.mem_iff_isSome_getElem?, Option.isSome_iff_exists]

/-- The names of a registry are those of the calls and those on the marks of functions. -/
theorem mem_names_iff :
    name ∈ ((ofCollections cs).registerAll calls).names ↔
      (∃ call ∈ calls, call.IsFor name) ∨
        ∃ c ∈ cs, ∃ key f refuses, c.Marks key name f refuses := by
  rw [mem_names_iff_getElem?]
  constructor
  · rintro ⟨g, hg⟩
    obtain ⟨run, refuses, hdefines, -⟩ := getElem?_eq_some_iff.1 hg
    cases hdefines with
    | @registered call hlast =>
      obtain ⟨before, after, hcalls, hfor, -⟩ := hlast
      exact .inl ⟨call, by simp [hcalls], hfor⟩
    | @marked before after c key f _ _ hcs _ hfirst =>
      exact .inr ⟨c, by simp [hcs], key, f, refuses, hfirst.marks⟩
  · intro h
    by_cases hcalls : ∃ call ∈ calls, call.IsFor name
    · obtain ⟨call, hlast⟩ := exists_isLastWith hcalls
      exact ⟨_, getElem?_eq_some_iff.2 ⟨_, _, .registered hlast, rfl⟩⟩
    · obtain ⟨c, hc, key, f, refuses, hmarks⟩ := h.resolve_left hcalls
      have hfound : (ofCollections cs).functions[name]? ≠ none := by
        rw [getElem?_ofCollections, Ne, Option.map_eq_none_iff, List.findSome?_eq_none_iff]
        intro hnone
        exact Collection.find?_functions_eq_none_iff.1 (hnone c hc) key f refuses hmarks
      obtain ⟨g, hg⟩ := Option.ne_none_iff_exists'.1 hfound
      exact ⟨g, getElem?_registerAll.2
        (.inr ⟨fun call hcall hfor => hcalls ⟨call, hcall, hfor⟩, hg⟩)⟩

/-- The names are sorted, and each of them occurs once. -/
theorem pairwise_names (r : Registry) : r.names.Pairwise (· < ·) :=
  r.functions.ordered_keys.imp fun h => compareOfLessAndEq_eq_lt.1 h

end Registry

/-! ## Looking up -/

/-- The function calls a reducer. If it refuses to be called on no values, it fails there under the
name, whatever the reducer would do. -/
structure Reducer.IsCallOf (f : Reducer) (name : String) (refuses : Bool) (run : Reducer) :
    Prop where
  refused : refuses = true → f [] = .error (.fault (.noValues name))
  called : ∀ vs, vs ≠ [] ∨ refuses = false → f vs = run vs

theorem Mark.isCallOf_apply (name : String) (refuses : Bool) (run : Reducer) :
    ((Mark.mk name refuses).apply run).IsCallOf (Text.upper name) refuses run := by
  cases refuses with
  | false => exact ⟨fun h => Bool.noConfusion h, fun vs _ => rfl⟩
  | true =>
    have hguarded : (Mark.mk name true).apply run = run.guarded name := if_pos rfl
    rw [hguarded]
    exact ⟨fun _ => if_pos rfl, fun vs h => if_neg (h.resolve_right Bool.noConfusion)⟩

/-- The plugins that are named, in their order. -/
def Plugin.named (available : List Plugin) (plugins : RawValue) :
    Except PluginError (List Plugin) := do
  let names ← Plugin.namesOfRaw plugins
  names.mapM (Plugin.ofRaw available)

namespace Registry

variable {cs : List Collection} {calls : List Registration} {name other : String}
  {available ps : List Plugin} {plugins : RawValue}

theorem ofPlugins_eq_ok (h : Plugin.named available plugins = .ok ps) :
    ofPlugins available plugins =
      .ok (ofCollections (ps.map (·.functions) ++ [Collection.standard])) := by
  obtain ⟨names, hnames, hps⟩ := exists_of_bind_eq_ok h
  simp only [ofPlugins, hnames, hps, bind, Except.bind]

/-- The letter case of a name does not matter. -/
theorem find?_eq_of_letterCase (r : Registry) (hname : Text.IsAscii name.toList)
    (hother : Text.IsAscii other.toList)
    (hcase : other.toList.map Char.toLower = name.toList.map Char.toLower) :
    r.find? other = r.find? name := by
  rw [find?, find?, (Text.lower_eq_iff hother hname).2 hcase]

/-- A name is found that stands for a function. -/
theorem find?_of_defines {run : Reducer} {refuses : Bool}
    (h : Defines cs calls (Text.lower name) run refuses) :
    ((ofCollections cs).registerAll calls).find? name =
      some ((Mark.mk (Text.lower name) refuses).apply run) :=
  getElem?_eq_some_iff.2 ⟨run, refuses, h, rfl⟩

theorem find?_of_not_defines (h : ∀ run refuses, ¬Defines cs calls (Text.lower name) run refuses) :
    ((ofCollections cs).registerAll calls).find? name = none := by
  refine Option.eq_none_iff_forall_ne_some.2 fun g hg => ?_
  obtain ⟨run, refuses, hdefines, -⟩ := getElem?_eq_some_iff.1 hg
  exact h run refuses hdefines

theorem contains_iff_mem_names {r : Registry} :
    r.contains name = true ↔ Text.lower name ∈ r.names := by
  rw [mem_names_iff_getElem?, contains, Option.isSome_iff_exists]
  rfl

/-- In the registry of some plugins, after some calls that register functions, a name in any letter
case stands for the function that is the first in the order of precedence, and the fault of this
function on no values bears the name; a name that stands for none is unknown. The names of the
registry are sorted, and they are those that have been registered or marked. -/
theorem lookup_by_precedence (hplugins : Plugin.named available plugins = .ok ps)
    (calls : List Registration) :
    ∃ r cs, (ofPlugins available plugins).map (·.registerAll calls) = .ok r ∧
      cs = ps.map (·.functions) ++ [Collection.standard] ∧
      (∀ name, Text.IsAscii name.toList →
        (∀ run refuses, Defines cs calls (Text.lower name) run refuses →
          r.contains name = true ∧
            ∃ f, r.lookup name = .ok f ∧ f.IsCallOf (Text.upper name) refuses run) ∧
        ((∀ run refuses, ¬Defines cs calls (Text.lower name) run refuses) →
          r.contains name = false ∧
            r.lookup name = .error (.unknownFunction (Text.upper name))) ∧
        ∀ other, Text.IsAscii other.toList →
          other.toList.map Char.toLower = name.toList.map Char.toLower →
            r.find? other = r.find? name) ∧
      (∀ name, r.contains name = true ↔ Text.lower name ∈ r.names) ∧
      r.names.Pairwise (· < ·) ∧ r.size = r.names.length ∧
      ∀ name, name ∈ r.names ↔ (∃ call ∈ calls, Text.lower call.name = name) ∨
        ∃ c ∈ cs, ∃ key f refuses, c.Marks key name f refuses := by
  obtain ⟨cs, hcs⟩ : ∃ cs, cs = ps.map (·.functions) ++ [Collection.standard] := ⟨_, rfl⟩
  have hr : (ofPlugins available plugins).map (·.registerAll calls) =
      .ok ((ofCollections cs).registerAll calls) := by
    rw [ofPlugins_eq_ok hplugins, hcs]
    rfl
  refine ⟨_, cs, hr, hcs, fun name hname => ⟨fun run refuses hdefines => ?_, fun hnone => ?_,
    fun other hother hcase => find?_eq_of_letterCase _ hname hother hcase⟩,
    fun name => contains_iff_mem_names, pairwise_names _, Std.TreeMap.length_keys.symm,
    fun name => mem_names_iff⟩
  · rw [contains, lookup, find?_of_defines hdefines, ← Text.upper_lower hname]
    exact ⟨rfl, _, rfl, Mark.isCallOf_apply _ _ _⟩
  · rw [contains, lookup, find?_of_not_defines hnone]
    exact ⟨rfl, rfl⟩

/-- A plugin that brings a sum of its own is asked before the standard functions, and the count
that is registered last replaces the standard one. -/
theorem lookup_by_precedence_overriding :
    let total : GridFunction := ⟨fun _ => .ok .one, some ⟨"sum", true⟩⟩
    let extra : Plugin := ⟨"extra", [("total", some total)], false⟩
    let calls : List Registration := [⟨"Count", ⟨fun _ => .ok .zero, none⟩, none⟩]
    ∃ r, (ofPlugins [extra] (.text "extra")).map (·.registerAll calls) = .ok r ∧
      (∃ f, r.lookup "Sum" = .ok f ∧ f [] = .error (.fault (.noValues "SUM")) ∧
        f [.zero] = .ok .one) ∧
      (∃ f, r.lookup "cOUNT" = .ok f ∧ f [] = .ok .zero) ∧ "count" ∈ r.names := by
  intro total extra calls
  have hnamed : Plugin.named [extra] (.text "extra") = .ok [extra] := by cbv
  obtain ⟨r, cs, hr, hcs, hnames, hcontains, -⟩ := lookup_by_precedence hnamed calls
  have hascii : Text.IsAscii ['S', 'u', 'm'] ∧ Text.IsAscii ['c', 'O', 'U', 'N', 'T'] := by
    simp [Text.IsAscii]
  have hhas : extra.functions.Has "total" (some total) := ⟨[], [], rfl, rfl, List.forall_mem_nil _⟩
  have hfirst : extra.functions.IsFirstMarked "total" "sum" total true := by
    refine ⟨⟨hhas, rfl⟩, fun key' f' refuses' hmarks => ?_⟩
    obtain ⟨before, after, hc, -⟩ := hmarks.has
    -- There is no other attribute.
    have hmem : (key', some f') ∈ extra.functions := by simp [hc]
    obtain ⟨rfl, -⟩ := Prod.mk.inj (List.mem_singleton.1 hmem)
    exact lt_irrefl _
  have hsum : Defines cs calls (Text.lower "Sum") total.run true := by
    have hlower : Text.lower "Sum" = "sum" := by decide
    have hcs' : cs = [] ++ extra.functions :: [Collection.standard] := hcs
    rw [hlower]
    exact .marked (by decide) hcs' (List.forall_mem_nil _) hfirst
  have hcount : Defines cs calls (Text.lower "cOUNT") (fun _ => .ok .zero) false :=
    .registered ⟨[], [], rfl, by decide, List.forall_mem_nil _⟩
  obtain ⟨-, f, hf, hrefused, hcalled⟩ := (hnames "Sum" hascii.1).1 _ _ hsum
  obtain ⟨hknown, g, hg, -, hgcalled⟩ := (hnames "cOUNT" hascii.2).1 _ _ hcount
  refine ⟨r, hr, ⟨f, hf, hrefused rfl, hcalled _ (by simp)⟩, ⟨g, hg, hgcalled _ (.inr rfl)⟩, ?_⟩
  exact (hcontains "cOUNT").1 hknown

end Registry

end DecimalSheet
