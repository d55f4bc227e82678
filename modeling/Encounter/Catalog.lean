import Encounter.Cast.Tory
import Encounter.Cast.ScrapBox

/-!
# The catalog of scripts

Bindings call scripts by name; the catalog finds them.
-/

namespace Encounter

/-- Scripts by their names. -/
structure Catalog where
  scripts : Table String NamedScript

namespace Catalog

/-- No script. -/
def empty : Catalog := ⟨Table.empty⟩

/-- Adds a script under its own name, replacing the one that had the name. -/
def register (catalog : Catalog) (script : NamedScript) : Catalog :=
  ⟨catalog.scripts.insert script.name script⟩

/-- The scripts registered from left to right. -/
def ofList (scripts : List NamedScript) : Catalog := scripts.foldl register empty

/-- Every script of the cast. -/
def builtin : Catalog := ofList [Tory.script, ScrapBox.script]

/-- The script of that name. -/
def find? (catalog : Catalog) (name : String) : Option NamedScript := catalog.scripts.find? name

/-- All names in ascending order. -/
def names (catalog : Catalog) : List String := catalog.scripts.keys

/-- The number of names. -/
def size (catalog : Catalog) : Nat := catalog.scripts.size

/-- Is there no script? -/
def isEmpty (catalog : Catalog) : Bool := catalog.scripts.isEmpty

end Catalog

end Encounter
