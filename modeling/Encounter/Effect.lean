import Encounter.Drop

/-!
# Effects

What a script does to the world besides talking.
-/

namespace Encounter

/-- A change that a script asks for. -/
inductive Effect where
  /-- A line in the player's chat. -/
  | chat (text : String)
  /-- Takes the player to a map, at a portal if one is named. -/
  | changeMap (map : MapId) (portal : Option PortalId)
  /-- Drops items and mesos at the trigger. -/
  | dropItems (request : DropRequest)
  deriving DecidableEq, Repr

end Encounter
