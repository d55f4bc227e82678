import Encounter.Table
import Encounter.Script.Basic

/-!
# Choosing a script by key

A script that behaves differently per key keeps one branch for each and runs the one that fits.
-/

namespace Encounter

/-- The branches of a script, by key. -/
structure Branches (κ : Type) [Ord κ] where
  table : Table κ NamedScript

namespace Branches

variable {κ : Type} [Ord κ] [Std.TransOrd κ] [Std.LawfulEqOrd κ]

/-- No branch. -/
def empty : Branches κ := ⟨Table.empty⟩

/-- Adds a branch, replacing the one that had its key. -/
def add (branches : Branches κ) (key : κ) (script : NamedScript) : Branches κ :=
  ⟨branches.table.insert key script⟩

/-- The branches added from left to right. -/
def ofList (entries : List (κ × NamedScript)) : Branches κ :=
  entries.foldl (fun branches entry => branches.add entry.1 entry.2) empty

/-- The branch of a key. -/
def find? (branches : Branches κ) (key : κ) : Option NamedScript := branches.table.find? key

/-- The number of keys with a branch. -/
def size (branches : Branches κ) : Nat := branches.table.size

/-- Is there no branch at all? -/
def isEmpty (branches : Branches κ) : Bool := branches.table.isEmpty

/-- Runs the branch of the key and tells whether there is one. -/
def dispatch (branches : Branches κ) (key : κ) (ctx : Context) : Script Bool :=
  match branches.find? key with
  | some script => do
    script.run ctx
    return true
  | none => return false

end Branches

end Encounter
