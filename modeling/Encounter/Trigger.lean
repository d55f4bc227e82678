import Encounter.Ident
import Encounter.Text.Blank
import Encounter.Text.Numeral

/-!
# Triggers

A trigger is an NPC or reactor, by kind and number, touched on a map. The key `npc:7` names it
without the map. `TriggerKey.parse` reads a key with blanks allowed around both parts and the kind in
any letter case.
-/

namespace Encounter

/-- What a player may touch. -/
inductive TriggerKind where
  | npc
  | reactor
  deriving DecidableEq, Repr

namespace TriggerKind

/-- The name of a kind in lower case. -/
def name : TriggerKind → String
  | npc => "npc"
  | reactor => "reactor"

instance : ToString TriggerKind := ⟨name⟩

/-- The kind with that name, in any ASCII letter case. -/
def ofName? (s : String) : Option TriggerKind :=
  if s.toList.map Char.toLower = npc.name.toList then some npc
  else if s.toList.map Char.toLower = reactor.name.toList then some reactor
  else none

end TriggerKind

/-- Names an NPC or reactor, without a map. -/
structure TriggerKey where
  kind : TriggerKind
  id : UInt32
  deriving DecidableEq, Repr

namespace TriggerKey

/-- The key of an NPC. -/
def npc (id : NpcId) : TriggerKey := ⟨.npc, id.val⟩

/-- The key of a reactor. -/
def reactor (id : ReactorId) : TriggerKey := ⟨.reactor, id.val⟩

instance : ToString TriggerKey := ⟨fun key => key.kind.name ++ ":" ++ toString key.id⟩

/-- Place of a key in the order of keys: NPCs before reactors, then by number. -/
def rank : TriggerKey → Nat
  | ⟨.npc, id⟩ => id.toNat
  | ⟨.reactor, id⟩ => UInt32.size + id.toNat

/-- Keys of equal rank are equal. -/
theorem rank_injective (a b : TriggerKey) (h : rank a = rank b) : a = b := by
  obtain ⟨ka, a⟩ := a
  obtain ⟨kb, b⟩ := b
  have ha := a.toNat_lt
  have hb := b.toNat_lt
  cases ka <;> cases kb <;> simp only [rank, UInt32.size] at h
  · exact congrArg _ (UInt32.toNat_inj.1 h)
  · omega
  · omega
  · exact congrArg _ (UInt32.toNat_inj.1 (by omega))

instance : Ord TriggerKey := ⟨compareOn rank⟩
instance : Std.TransOrd TriggerKey := inferInstanceAs (Std.TransCmp (compareOn rank))
instance : Std.LawfulEqOrd TriggerKey := lawfulEqCmp_compareOn rank_injective

end TriggerKey

/-- Why a text is no trigger key; each cause carries the piece at fault, blanks included. -/
inductive TriggerKeyError where
  | shape (text : String)
  | kind (text : String)
  | id (text : String)
  deriving DecidableEq, Repr

/-- The text of the error. -/
def TriggerKeyError.message : TriggerKeyError → String
  | shape text => "trigger key '" ++ text ++ "' must look like 'npc:<id>' or 'reactor:<id>'"
  | kind text => "unknown trigger kind '" ++ text ++ "'"
  | id text => "trigger id '" ++ text ++ "' is not a number"

/-- The pieces before and after the first colon. -/
def splitColon : List Char → Option (List Char × List Char)
  | [] => none
  | c :: rest =>
    if c = ':' then some ([], rest) else (splitColon rest).map fun p => (c :: p.1, p.2)

/-- Reads a trigger key: a kind, a colon and a number, with blanks allowed around both parts. -/
def TriggerKey.parse (s : String) : Except TriggerKeyError TriggerKey :=
  match splitColon s.toList with
  | none => .error (.shape s)
  | some (kindText, idText) =>
    match TriggerKind.ofName? (String.ofList (Text.trimChars kindText)) with
    | none => .error (.kind (String.ofList kindText))
    | some kind =>
      match Text.word? (String.ofList (Text.trimChars idText)) with
      | none => .error (.id (String.ofList idText))
      | some id => .ok ⟨kind, id⟩

/-- An NPC or reactor touched on a map. -/
structure Trigger where
  key : TriggerKey
  map : MapId
  deriving DecidableEq, Repr

namespace Trigger

/-- An NPC touched on a map. -/
def npc (id : NpcId) (map : MapId) : Trigger := ⟨.npc id, map⟩

/-- A reactor touched on a map. -/
def reactor (id : ReactorId) (map : MapId) : Trigger := ⟨.reactor id, map⟩

/-- The kind of the thing touched. -/
def kind (t : Trigger) : TriggerKind := t.key.kind

instance : ToString Trigger := ⟨fun t => toString t.key ++ " on " ++ toString t.map⟩

end Trigger

end Encounter
