import Encounter.Ron.Value
import Encounter.Cast.Tory
import Encounter.Cast.ScrapBox

/-!
# Trigger bindings

A binding says which script answers an NPC or reactor. Binding files are RON records with one field
`bindings`; a file that binds a key twice is refused, since the registry would keep the last entry
only.
-/

namespace Encounter

/-- Which script answers a key. -/
structure Binding where
  key : TriggerKey
  script : String
  deriving DecidableEq, Repr

/-- Why a text holds no bindings. -/
inductive BindingError where
  /-- The text is no RON document of the expected structure. -/
  | malformed
  /-- The key is bound more than once. -/
  | duplicate (key : TriggerKey)
  deriving DecidableEq, Repr

/-- The text of the error. -/
def BindingError.message : BindingError → String
  | malformed => "Failed to parse bindings RON"
  | duplicate key => "trigger " ++ toString key ++ " is bound more than once"

namespace Binding

/-- The fields of a record that may carry the name `expected`, or has to. -/
def fieldsNamed? (nameRequired : Bool) (expected : String) :
    Ron.Value → Option (List (String × Ron.Value))
  | .record none fields => if nameRequired then none else some fields
  | .record (some name) fields => if name = expected then some fields else none
  | _ => none

/-- The value of a field that occurs exactly once. -/
def onlyField? (name : String) (fields : List (String × Ron.Value)) : Option Ron.Value :=
  match fields.filter fun field => field.1 == name with
  | [field] => some field.2
  | _ => none

/-- Reads a kind: a bare name. -/
def kindOfRon? : Ron.Value → Option TriggerKind
  | .unit (some name) =>
    if name = "Npc" then some .npc else if name = "Reactor" then some .reactor else none
  | _ => none

/-- Reads a number of 32 bits; it may carry that type, and zero may carry a minus sign. -/
def wordOfRon? : Ron.Value → Option UInt32
  | .integer ⟨negative, magnitude, type⟩ =>
    if (type = none ∨ type = some (.unsigned 32)) ∧
        Ron.IntType.fits negative magnitude (.unsigned 32) then
      some (UInt32.ofNat magnitude)
    else none
  | _ => none

/-- Reads a text. -/
def textOfRon? : Ron.Value → Option String
  | .text value => some value
  | _ => none

/-- Reads a binding; fields in any order, unknown ones ignored. -/
def ofRon? (nameRequired : Bool) (value : Ron.Value) : Option Binding := do
  let fields ← fieldsNamed? nameRequired "TriggerBinding" value
  let kind ← kindOfRon? (← onlyField? "kind" fields)
  let id ← wordOfRon? (← onlyField? "id" fields)
  let script ← textOfRon? (← onlyField? "script" fields)
  return ⟨⟨kind, id⟩, script⟩

/-- Reads the list of bindings of a file. -/
def listOfRon? (doc : Ron.Document) : Option (List Binding) := do
  let nameRequired := doc.extensions.contains .explicitStructNames
  let fields ← fieldsNamed? nameRequired "BindingFile" doc.value
  match ← onlyField? "bindings" fields with
  | .list items => items.mapM (ofRon? nameRequired)
  | _ => none

/-- The bindings that a text lists, repeated keys included. -/
def read? (s : String) : Option (List Binding) := (Ron.Document.parse s).bind listOfRon?

/-- The first key that occurs again behind `seen`. -/
def firstRepeated (seen : List TriggerKey) : List Binding → Option TriggerKey
  | [] => none
  | binding :: rest =>
    if seen.contains binding.key then some binding.key
    else firstRepeated (binding.key :: seen) rest

/-- The bindings of a file, given its text. -/
def parse (s : String) : Except BindingError (List Binding) :=
  match read? s with
  | none => .error .malformed
  | some bindings =>
    match firstRepeated [] bindings with
    | some key => .error (.duplicate key)
    | none => .ok bindings

/-- The bindings of the cast. -/
def builtin : List Binding :=
  [⟨.npc Tory.npc, Tory.script.name⟩, ⟨.reactor ScrapBox.reactor, ScrapBox.script.name⟩]

end Binding

end Encounter
