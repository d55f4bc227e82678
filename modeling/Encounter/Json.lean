/-!
# JSON values

A JSON value with the fields of its objects in written order. Numbers keep whether they were written
as an integer. The readers below are the shared rules for records and alternatives: unknown fields of
a record are ignored, a repeated field is refused, a record may also be written as the list of its
members, and an alternative is its name alone or an object whose only field carries its content.
-/

namespace Encounter

/-- A JSON value. -/
inductive Json where
  | null
  | bool (value : Bool)
  /-- A number written without fraction and exponent. -/
  | integer (value : Int)
  /-- Any other number. -/
  | decimal
  | text (value : String)
  | list (items : List Json)
  | object (fields : List (String × Json))

namespace Json

/-- The natural number below `bound` that an integer is. -/
def natBelow? (bound : Nat) : Json → Option Nat
  | integer (.ofNat n) => if n < bound then some n else none
  | _ => none

/-- An integer of at most eight bits. -/
def byte? (json : Json) : Option UInt8 := (json.natBelow? UInt8.size).map UInt8.ofNat

/-- An integer of at most 32 bits. -/
def word? (json : Json) : Option UInt32 := (json.natBelow? UInt32.size).map UInt32.ofNat

/-- The content of a text. -/
def text? : Json → Option String
  | text value => some value
  | _ => none

/-- The items of a list. -/
def list? : Json → Option (List Json)
  | list items => some items
  | _ => none

/-- The only value of a field, `some none` if there is no such field. -/
def field? (fields : List (String × Json)) (name : String) : Option (Option Json) :=
  match fields.filter fun field => field.1 == name with
  | [] => some none
  | [field] => some (some field.2)
  | _ => none

/-- The values of the named fields of an object. -/
def fields? (names : List String) : Json → Option (List (Option Json))
  | object fields => names.mapM (field? fields)
  | _ => none

/-- The values of the named members of a record, written as an object or as a list. -/
def record? (names : List String) : Json → Option (List (Option Json))
  | list items => if items.length = names.length then some (items.map some) else none
  | json => json.fields? names

/-- The name of an alternative and its content. -/
def variant? : Json → Option (String × Option Json)
  | text name => some (name, none)
  | object [(name, content)] => some (name, some content)
  | _ => none

/-- May this be the content of an alternative that carries nothing? -/
def isUnit : Option Json → Bool
  | none => true
  | some null => true
  | some _ => false

/-- Reads an optional value: a missing one and null are none. -/
def optional? {α : Type} (read : Json → Option α) : Option Json → Option (Option α)
  | none => some none
  | some null => some none
  | some json => (read json).map some

/-- An object with one field. -/
def single (name : String) (content : Json) : Json := object [(name, content)]

/-- The number of a natural number. -/
def ofNat (n : Nat) : Json := integer (.ofNat n)

/-- The number of a word. -/
def ofWord (n : UInt32) : Json := ofNat n.toNat

/-- The number of a byte. -/
def ofByte (n : UInt8) : Json := ofNat n.toNat

end Json

end Encounter
