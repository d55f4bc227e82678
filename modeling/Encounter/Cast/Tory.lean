import Encounter.PartyGate
import Encounter.Script.Branches

/-!
# Tory

Tory guards the way from Henesys Park to Primrose Hill and walks players back out of it. What she
does depends on the map she stands on; elsewhere she does nothing.
-/

namespace Encounter.Tory

/-- Tory's number. -/
def npc : NpcId := ⟨1012112⟩

/-- Where the way to Primrose Hill begins. -/
def henesysPark : MapId := ⟨100000200⟩

/-- Where players are sent back without being asked. -/
def forcedReturnMap : MapId := ⟨910010400⟩

/-- Where players may choose to go back. -/
def offeredReturnMap : MapId := ⟨910010100⟩

/-- Three to six members of level 10 or more on the map. -/
def primroseHillGate : PartyGate := ⟨3, PartyGate.maxPartySize, ⟨10, 255⟩⟩

/-- The first page at the park. -/
def introText : String :=
  "This is the #rPrimrose Hill#k. When there is a full moon the moon bunny comes to make rice cakes. Growlie wants rice cakes so you better go help him or he'll eat you."

/-- The menu at the park. -/
def helpMenuText : String := "Would you like to go help Growlie?\r\n#b#L0#Yes, I will go.#l"

/-- The answer to a player without a party. -/
def notInPartyText : String := "You are not in a party."

/-- The answer to a member who does not lead. -/
def notLeaderText : String := "You are not the party leader."

/-- The answer to a party with too few or too many qualified members. -/
def wrongPartySizeText : String :=
  "Your party is not a party of three to six. Make sure all your members are present and qualified to participate in this quest."

/-- The answer to a qualified party. -/
def notReadyText : String := "#e#b#rPrimrose Hill#k is not yet ready. Sorry!#n#k"

/-- The chat line after a forced return. -/
def warpedBackText : String := "You have been warped to Henesys Park."

/-- The question before an offered return. -/
def offerReturnText : String := "Would you like go to #rHenesys Park#k?"

/-- What Tory says at the gate. -/
def gateText : Except GateRejection Unit → String
  | .ok () => notReadyText
  | .error .notInParty => notInPartyText
  | .error .notLeader => notLeaderText
  | .error (.sizeOutOfRange _ _ _) => wrongPartySizeText

/-- At the park: offers the quest to the leader of a qualified party. -/
def entrance : NamedScript :=
  ⟨"moonrabbit::entrance", fun ctx => do
    Script.sayNext introText
    let choice ← Script.askMenu helpMenuText
    if choice ≠ 0 then return
    Script.say (gateText (primroseHillGate.check ctx.player ctx.map.id ctx.party))⟩

/-- Sends the player to the park and explains afterwards. -/
def forcedReturn : NamedScript :=
  ⟨"moonrabbit::forced_return", fun _ => do
    Script.changeMap henesysPark
    Script.chat warpedBackText⟩

/-- Sends the player to the park after asking. -/
def offeredReturn : NamedScript :=
  ⟨"moonrabbit::offered_return", fun _ => do
    let answer ← Script.askYesNo offerReturnText
    if answer.isYes then Script.changeMapAt henesysPark ⟨0⟩⟩

/-- What Tory does, by map. -/
def branches : Branches MapId :=
  ((Branches.empty.add henesysPark entrance).add forcedReturnMap forcedReturn).add
    offeredReturnMap offeredReturn

/-- Tory's script. -/
def script : NamedScript :=
  ⟨"moonrabbit", fun ctx => do
    let _ ← branches.dispatch ctx.map.id ctx⟩

end Encounter.Tory
