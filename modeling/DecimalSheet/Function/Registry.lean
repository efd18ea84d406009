import DecimalSheet.Function.Collection

/-!
# The registry of functions

The registry finds a function by its name in any letter case. It is filled from several
collections, of which the first to define a name wins, and later registrations replace what they
find.

## Main definitions

* `Registry`: functions by their names in lower case
* `Registry.find?`, `Registry.lookup`, `Registry.names`: looking up
* `Registry.register`: adding or replacing a function
* `Registry.ofCollections`, `Registry.ofPlugins`: the registry of some collections, and of the
  plugins with given names

## Main results

* `Registry.find?_put`: the last function put under a name is found, others are kept
-/

namespace DecimalSheet

/-- Functions by their names in lower case. -/
structure Registry where
  functions : Std.TreeMap String Reducer

namespace Registry

/-- The registry without functions. -/
def empty : Registry := ⟨∅⟩

/-- The function with a name in any letter case. -/
def find? (r : Registry) (name : String) : Option Reducer := r.functions[Text.lower name]?

/-- The function with a name in any letter case, or the fault that there is none. -/
def lookup (r : Registry) (name : String) : Except Fault Reducer :=
  (r.find? name).elim (.error (.unknownFunction (Text.upper name))) .ok

/-- A function is registered under the name, in any letter case. -/
def contains (r : Registry) (name : String) : Bool := (r.find? name).isSome

/-- The names of the functions, in code point order. -/
def names (r : Registry) : List String := r.functions.keys

/-- The number of functions. -/
def size (r : Registry) : Nat := r.functions.size

/-- The registry with a function under a name in lower case, in place of any other. -/
def put (r : Registry) (name : String) (f : Reducer) : Registry :=
  ⟨r.functions.insert name f⟩

/-- The registry with a function under a name in lower case, unless there is one. -/
def putNew (r : Registry) (entry : String × Reducer) : Registry :=
  ⟨r.functions.insertIfNew entry.1 entry.2⟩

theorem find?_put (r : Registry) (name other : String) (f : Reducer) :
    (r.put name f).find? other = if name = Text.lower other then some f else r.find? other := by
  simp only [find?, put, Std.TreeMap.getElem?_insert, Std.LawfulEqCmp.compare_eq_iff_eq]

/-- Adds a function under a name in any letter case, in place of any other. Whether it fails on no
values is told by the argument, else by its mark, and else it does not. -/
def register (r : Registry) (name : String) (f : GridFunction) (refusesEmpty : Option Bool) :
    Registry :=
  let name := Text.lower name
  let refuses := refusesEmpty.getD ((f.mark.map (·.refusesEmpty)).getD false)
  r.put name ((Mark.mk name refuses).apply f.run)

/-- The registry of the functions in some collections. The first to define a name wins. -/
def ofCollections (cs : List Collection) : Registry :=
  (cs.flatMap Collection.functions).foldl putNew empty

/-- The registry of the standard functions. -/
def standard : Registry := ofCollections [Collection.standard]

/-- The registry of the functions of some plugins and of the standard functions, in this order. -/
def ofPlugins (available : List Plugin) (plugins : RawValue) : Except PluginError Registry := do
  let names ← Plugin.namesOfRaw plugins
  let ps ← names.mapM (Plugin.ofRaw available)
  .ok (ofCollections (ps.map (·.functions) ++ [Collection.standard]))

end Registry

end DecimalSheet
