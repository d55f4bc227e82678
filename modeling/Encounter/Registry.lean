import Encounter.Binding
import Encounter.Catalog

/-!
# The trigger registry

The registry finds the script that answers a key.
-/

namespace Encounter

/-- A binding names a script that the catalog lacks. -/
structure UnknownScript where
  key : TriggerKey
  script : String
  deriving DecidableEq, Repr

/-- The text of the error. -/
def UnknownScript.message (e : UnknownScript) : String :=
  "trigger " ++ toString e.key ++ " is bound to unknown script '" ++ e.script ++ "'"

/-- Scripts by the keys that they answer. -/
structure Registry where
  scripts : Table TriggerKey NamedScript

namespace Registry

/-- No key is answered. -/
def empty : Registry := ⟨Table.empty⟩

instance : Inhabited Registry := ⟨empty⟩

/-- The script that answers a key. -/
def find? (registry : Registry) (key : TriggerKey) : Option NamedScript :=
  registry.scripts.find? key

/-- Lets a script answer a key in place of the one that did. -/
def insert (registry : Registry) (key : TriggerKey) (script : NamedScript) : Registry :=
  ⟨registry.scripts.insert key script⟩

/-- Lets a script answer a key and gives the script that it replaces. -/
def register (registry : Registry) (key : TriggerKey) (script : NamedScript) :
    Option NamedScript × Registry :=
  (registry.find? key, registry.insert key script)

/-- Is the key answered? -/
def contains (registry : Registry) (key : TriggerKey) : Bool := registry.scripts.contains key

/-- The keys that are answered, in ascending order. -/
def keys (registry : Registry) : List TriggerKey := registry.scripts.keys

/-- The keys with the names of their scripts, in ascending order. -/
def bindings (registry : Registry) : List (TriggerKey × String) :=
  registry.scripts.entries.map fun entry => (entry.1, entry.2.name)

/-- The number of keys. -/
def size (registry : Registry) : Nat := registry.scripts.size

/-- Is no key answered? -/
def isEmpty (registry : Registry) : Bool := registry.scripts.isEmpty

/-- Adds the bindings from left to right, resolving names in the catalog. -/
def addBindings (catalog : Catalog) (registry : Registry) :
    List Binding → Except UnknownScript Registry
  | [] => .ok registry
  | binding :: rest =>
    match catalog.find? binding.script with
    | some script => addBindings catalog (registry.insert binding.key script) rest
    | none => .error ⟨binding.key, binding.script⟩

/-- The registry of the bindings; a later binding of a key replaces an earlier one. -/
def ofBindings (catalog : Catalog) (bindings : List Binding) : Except UnknownScript Registry :=
  addBindings catalog empty bindings

/-- The registry of the cast. -/
def builtin : Registry :=
  (empty.insert (.npc Tory.npc) Tory.script).insert (.reactor ScrapBox.reactor) ScrapBox.script

end Registry

end Encounter
