/-!
# Identifiers and positions

Each kind of thing has a number type of its own, so a map is never taken for a player. Their texts
name the kind: `map 7`, `player #7`.
-/

namespace Encounter

/-- Number of an NPC. -/
structure NpcId where
  val : UInt32
  deriving DecidableEq, Repr

/-- Number of a reactor. -/
structure ReactorId where
  val : UInt32
  deriving DecidableEq, Repr

/-- Number of a map. -/
structure MapId where
  val : UInt32
  deriving DecidableEq, Repr

/-- Number of a player. -/
structure PlayerId where
  val : UInt32
  deriving DecidableEq, Repr

/-- Number of an item. -/
structure ItemId where
  val : UInt32
  deriving DecidableEq, Repr

/-- Number of a portal of a map. -/
structure PortalId where
  val : UInt8
  deriving DecidableEq, Repr

/-- Number of a session; sessions are numbered from 1 in the order of their triggers. A running
program counts them in 64 bits. It would take 2 ^ 64 triggers to use them up, so they are not bounded
here. -/
structure SessionId where
  val : Nat
  deriving DecidableEq, Repr

instance : ToString NpcId := ⟨fun id => "npc " ++ toString id.val⟩
instance : ToString ReactorId := ⟨fun id => "reactor " ++ toString id.val⟩
instance : ToString MapId := ⟨fun id => "map " ++ toString id.val⟩
instance : ToString PlayerId := ⟨fun id => "player #" ++ toString id.val⟩
instance : ToString ItemId := ⟨fun id => "item " ++ toString id.val⟩
instance : ToString PortalId := ⟨fun id => "portal " ++ toString id.val⟩
instance : ToString SessionId := ⟨fun id => "session " ++ toString id.val⟩

/-! ## Order

Identifiers are ordered as their numbers.
-/

instance : Ord ReactorId := ⟨compareOn (·.val)⟩
instance : Ord MapId := ⟨compareOn (·.val)⟩
instance : Ord PlayerId := ⟨compareOn (·.val)⟩
instance : Ord SessionId := ⟨compareOn (·.val)⟩

instance : Std.TransOrd ReactorId := inferInstanceAs (Std.TransCmp (compareOn ReactorId.val))
instance : Std.TransOrd MapId := inferInstanceAs (Std.TransCmp (compareOn MapId.val))
instance : Std.TransOrd PlayerId := inferInstanceAs (Std.TransCmp (compareOn PlayerId.val))
instance : Std.TransOrd SessionId := inferInstanceAs (Std.TransCmp (compareOn SessionId.val))

/-- Comparing by an injective key tells all values apart. -/
theorem lawfulEqCmp_compareOn {α : Type} {β : Type} [Ord β] [Std.LawfulEqOrd β] {f : α → β}
    (hf : ∀ a b, f a = f b → a = b) : Std.LawfulEqCmp (compareOn f) where
  compare_self {a} := show compare (f a) (f a) = .eq from Std.ReflCmp.compare_self
  eq_of_compare {a b} h := hf a b (Std.LawfulEqCmp.eq_of_compare (show compare (f a) (f b) = .eq from h))

instance : Std.LawfulEqOrd ReactorId :=
  lawfulEqCmp_compareOn (f := ReactorId.val) fun ⟨_⟩ ⟨_⟩ h => congrArg ReactorId.mk h
instance : Std.LawfulEqOrd MapId :=
  lawfulEqCmp_compareOn (f := MapId.val) fun ⟨_⟩ ⟨_⟩ h => congrArg MapId.mk h
instance : Std.LawfulEqOrd PlayerId :=
  lawfulEqCmp_compareOn (f := PlayerId.val) fun ⟨_⟩ ⟨_⟩ h => congrArg PlayerId.mk h
instance : Std.LawfulEqOrd SessionId :=
  lawfulEqCmp_compareOn (f := SessionId.val) fun ⟨_⟩ ⟨_⟩ h => congrArg SessionId.mk h

/-- A point on a map. -/
structure Position where
  x : Int32
  y : Int32
  deriving DecidableEq, Repr

/-- The point with both coordinates zero. -/
def Position.origin : Position := ⟨0, 0⟩

/-- Moves a point sideways. -/
def Position.offsetX (p : Position) (dx : Int32) : Position := ⟨p.x + dx, p.y⟩

instance : ToString Position := ⟨fun p => "(" ++ toString p.x ++ ", " ++ toString p.y ++ ")"⟩

end Encounter
