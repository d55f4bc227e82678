import Encounter.Trigger
import Encounter.Proofs.Text.Numeral

/-!
# Trigger keys as they are written

A key is written as the name of a kind, in any letter case, a colon and a number, with blanks around
both parts. Just these texts are read as keys. Of any other text the first thing that is wrong is
told: that there is no colon, that no kind stands before the first colon, or that no number stands
behind it.
-/

namespace Encounter

/-- The text is the name of the kind, in any ASCII letter case. -/
def TriggerKind.Named (kind : TriggerKind) (name : List Char) : Prop :=
  name.map Char.toLower = kind.name.toList

namespace TriggerKind

variable {name text : List Char}

/-- A name in any letter case consists of letters: it has neither blanks nor colons. -/
theorem Named.of_mem {kind : TriggerKind} (h : kind.Named name) {c : Char} (hc : c ∈ name) :
    Text.isBlank c = false ∧ c ≠ ':' := by
  have hall : kind.name.toList.all (fun d => !Text.isBlank d && d != ':') = true := by
    cases kind <;> decide
  have hlower : c.toLower ∈ kind.name.toList := h ▸ List.mem_map_of_mem hc
  obtain ⟨hblank, hcolon⟩ : Text.isBlank c.toLower = false ∧ c.toLower ≠ ':' := by
    simpa using List.all_eq_true.1 hall c.toLower hlower
  refine ⟨Text.isBlank_toLower c ▸ hblank, ?_⟩
  rintro rfl
  exact hcolon rfl

end TriggerKind

namespace TriggerKey

/-- The key is written so: its kind, a colon and its number, with blanks around both. -/
def Written (key : TriggerKey) (text : List Char) : Prop :=
  ∃ front back, text = front ++ ':' :: back ∧ Text.Stands key.kind.Named front ∧
    Text.Stands (Text.Unsigned key.id.toNat) back

/-- What a text stands for: the key that is written so, or else the first thing that is wrong, with the
piece at fault, blanks included. -/
inductive Reads (s : String) : Except TriggerKeyError TriggerKey → Prop where
  | key {key : TriggerKey} (h : key.Written s.toList) : Reads s (.ok key)
  /-- There is no colon. -/
  | shape (h : ':' ∉ s.toList) : Reads s (.error (.shape s))
  /-- What stands before the first colon names no kind. -/
  | kind {front back : List Char} (hfront : ':' ∉ front) (hs : s.toList = front ++ ':' :: back)
      (hnone : ∀ kind : TriggerKind, ¬ Text.Stands kind.Named front) :
      Reads s (.error (.kind (String.ofList front)))
  /-- A kind stands before the first colon, but no number of 32 bits behind it. -/
  | id {front back : List Char} {kind : TriggerKind} (hs : s.toList = front ++ ':' :: back)
      (hkind : Text.Stands kind.Named front)
      (hnone : ∀ n : UInt32, ¬ Text.Stands (Text.Unsigned n.toNat) back) :
      Reads s (.error (.id (String.ofList back)))

variable {s : String}

end TriggerKey
end Encounter
