import DecimalSheet.Function.Reducer
import DecimalSheet.Text.Split
import Std.Data.TreeMap

/-!
# Collections of functions

A collection holds members under attributes, and those members that are marked reducers are
functions of formulas. A plugin is a collection that can be had by its name. Names may have parts
with points between them, and only a package has further plugins for its parts.

## Main definitions

* `Collection`, `Collection.functions`: members, and the functions among them
* `Collection.standard`: the standard functions
* `Plugin`, `PluginError`: collections with names, and why none is found
* `Plugin.find`: the plugin with a name
-/

namespace DecimalSheet

/-! ## Collections -/

/-- Members under attributes. A member that is no reducer is `none`, and of two members under one
attribute the later one counts. -/
abbrev Collection : Type := List (String × Option GridFunction)

namespace Collection

/-- The members by their attributes. -/
def members (c : Collection) : Std.TreeMap String (Option GridFunction) :=
  c.foldl (fun found m => found.insert m.1 m.2) ∅

/-- The functions in a collection with their names, in the code point order of their
attributes. -/
def functions (c : Collection) : List (String × Reducer) :=
  c.members.toList.filterMap fun member => do
    let f ← member.2
    let m ← f.mark
    some (m.name, m.apply f.run)

/-- The standard functions. -/
def standard : Collection :=
  [("average", some .average), ("count", some .count), ("max_", some .max),
    ("min_", some .min), ("product", some .product), ("sum_", some .sum)]

end Collection

/-! ## Plugins -/

/-- A collection that can be had by its name. -/
structure Plugin where
  name : String
  functions : Collection
  /-- Further plugins may be named after this one, with a point between the names. -/
  isPackage : Bool

/-- Why there are no functions to be had from plugins. -/
inductive PluginError where
  /-- The name of the plugin is empty. -/
  | noName
  /-- There is no plugin with the name. -/
  | notFound (name : String)
  /-- The name is that of a part of a plugin that has no parts. -/
  | notAPackage (name whole : String)
  /-- The name begins with a point. -/
  | relativeName (name : String)
  /-- The name is no text. -/
  | notAName (value : RawValue)
  /-- The names are no collection. -/
  | names (error : MembersError)

/-- What is wrong with plugins. -/
def PluginError.message : PluginError → String
  | noName => "Empty module name"
  | notFound name => "No module named " ++ Text.quoted name
  | notAPackage name whole =>
    "No module named " ++ Text.quoted name ++ "; " ++ Text.quoted whole ++ " is not a package"
  | relativeName name =>
    "the 'package' argument is required to perform a relative import for " ++ Text.quoted name
  | notAName value => "'" ++ value.kind ++ "' object has no attribute 'startswith'"
  | names error => error.message

namespace Plugin

/-- The name with the given parts, of which the last comes first. -/
def nameOfParts (parts : List (List Char)) : String :=
  ".".intercalate (parts.reverse.map String.ofList)

/-- The plugin whose name has the given parts, of which the last comes first. If there is none, the
whole of which it would be a part is looked for, and what is wrong with that is told first. -/
def findParts (available : List Plugin) : List (List Char) → Except PluginError Plugin
  | [] => .error .noName
  | part :: outer =>
    let name := nameOfParts (part :: outer)
    match available.find? (·.name == name) with
    | some p => .ok p
    | none =>
      if outer = [] then .error (.notFound name)
      else
        -- What is wrong with the whole comes before what is wrong with the part.
        match findParts available outer with
        | .error e => .error e
        | .ok whole =>
          if whole.isPackage then .error (.notFound name)
          else .error (.notAPackage name whole.name)

/-- The plugin with a name. -/
def find (available : List Plugin) (name : String) : Except PluginError Plugin :=
  match name.toList with
  | [] => .error .noName
  | '.' :: _ => .error (.relativeName name)
  | cs => findParts available (Text.fields '.' [] cs).reverse

/-- The plugin that a raw value names. -/
def ofRaw (available : List Plugin) : RawValue → Except PluginError Plugin
  | .text name => find available name
  | v => .error (.notAName v)

/-- The names of plugins: a name, a collection of names, or none. -/
def namesOfRaw : RawValue → Except PluginError (List RawValue)
  | .missing => .ok []
  | .text name => .ok [.text name]
  | v => v.elements.mapError .names

end Plugin

end DecimalSheet
