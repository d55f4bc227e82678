import Encounter.Snapshot

/-!
# Party gates

A gate lets a party through when the player leads it and the number of members on the map with a
fitting level lies between two bounds.
-/

namespace Encounter

/-- Why a gate stays shut. -/
inductive GateRejection where
  | notInParty
  | notLeader
  | sizeOutOfRange (count min max : Nat)
  deriving DecidableEq, Repr

/-- The text of the rejection. -/
def GateRejection.message : GateRejection → String
  | notInParty => "player is not in a party"
  | notLeader => "player does not lead the party"
  | sizeOutOfRange count min max =>
    toString count ++ " qualified members present, expected " ++ toString min ++ " to " ++
      toString max

/-- What a party has to look like. -/
structure PartyGate where
  /-- Fewest qualified members. -/
  min : Nat
  /-- Most qualified members. -/
  max : Nat
  /-- Levels that qualify. -/
  levels : LevelRange
  deriving DecidableEq, Repr

namespace PartyGate

/-- The most members a party may have. -/
def maxPartySize : Nat := 6

/-- The first unmet condition, in the order membership, leadership, size. -/
def check (gate : PartyGate) (player : PlayerView) (map : MapId) :
    Option PartyView → Except GateRejection Unit
  | none => .error .notInParty
  | some party =>
    let count := party.countOn map gate.levels
    if !party.isLeader player.id then .error .notLeader
    else if count < gate.min ∨ gate.max < count then .error (.sizeOutOfRange count gate.min gate.max)
    else .ok ()

end PartyGate

end Encounter
