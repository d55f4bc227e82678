import Encounter.Ident

/-!
# Snapshots of the world

What a script sees of the world is fixed when it starts: the player, the map and the player's party.
-/

namespace Encounter

/-- An inclusive range of levels. -/
structure LevelRange where
  min : UInt8
  max : UInt8
  deriving DecidableEq, Repr

namespace LevelRange

/-- Every level. -/
def any : LevelRange := ⟨0, 255⟩

/-- Does the level lie in the range? -/
def contains (range : LevelRange) (level : UInt8) : Bool := range.min ≤ level && level ≤ range.max

end LevelRange

/-- A player as seen at one moment. -/
structure PlayerView where
  id : PlayerId
  name : String
  level : UInt8
  map : MapId
  deriving DecidableEq, Repr

/-- A map as seen at one moment. -/
structure MapView where
  id : MapId
  deriving DecidableEq, Repr

/-- A party member as seen at one moment. -/
structure PartyMember where
  id : PlayerId
  map : MapId
  level : UInt8
  deriving DecidableEq, Repr

/-- A party as seen at one moment; members who are not connected are left out. -/
structure PartyView where
  leader : PlayerId
  members : List PartyMember
  deriving DecidableEq, Repr

namespace PartyView

/-- Does the player lead the party? -/
def isLeader (party : PartyView) (player : PlayerId) : Bool := party.leader == player

/-- Is the player among the members? -/
def contains (party : PartyView) (player : PlayerId) : Bool :=
  party.members.any fun member => member.id == player

/-- The number of member entries. -/
def size (party : PartyView) : Nat := party.members.length

/-- Has the party no member entry? -/
def isEmpty (party : PartyView) : Bool := party.members.isEmpty

/-- The number of member entries on the map with a level in the range. -/
def countOn (party : PartyView) (map : MapId) (levels : LevelRange) : Nat :=
  party.members.countP fun member => member.map == map && levels.contains member.level

end PartyView

end Encounter
