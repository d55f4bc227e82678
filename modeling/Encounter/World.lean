import Encounter.Table
import Encounter.Trigger
import Encounter.Snapshot
import Encounter.Effect

/-!
# The world

The world keeps the connected players, their parties, where reactors stand and what lies on the
ground. Parties are kept by leader, each with a roster of player numbers; levels and maps of members
are read from the player table when a snapshot is taken. A player who leaves the party that they lead
disbands it.
-/

namespace Encounter

/-- Where a reactor stands: a map and the number of the reactor. -/
structure ReactorSpot where
  map : MapId
  reactor : ReactorId
  deriving DecidableEq, Repr

namespace ReactorSpot

/-- Place of a spot in the order of spots: by map, then by reactor. -/
def rank (spot : ReactorSpot) : Nat := spot.map.val.toNat * UInt32.size + spot.reactor.val.toNat

/-- Spots of equal rank are equal. -/
theorem rank_injective (a b : ReactorSpot) (h : rank a = rank b) : a = b := by
  obtain ⟨⟨ma⟩, ⟨ra⟩⟩ := a
  obtain ⟨⟨mb⟩, ⟨rb⟩⟩ := b
  have ha := ra.toNat_lt
  have hb := rb.toNat_lt
  simp only [rank, UInt32.size] at h
  have hm : ma = mb := UInt32.toNat_inj.1 (by omega)
  have hr : ra = rb := UInt32.toNat_inj.1 (by omega)
  rw [hm, hr]

instance : Ord ReactorSpot := ⟨compareOn rank⟩
instance : Std.TransOrd ReactorSpot := inferInstanceAs (Std.TransCmp (compareOn rank))
instance : Std.LawfulEqOrd ReactorSpot := lawfulEqCmp_compareOn rank_injective

end ReactorSpot

/-- What the world keeps of a connected player besides the number. -/
structure Profile where
  name : String
  level : UInt8
  map : MapId
  deriving DecidableEq, Repr

/-- Who causes an effect, and through which trigger. -/
structure Origin where
  player : PlayerId
  trigger : Trigger
  deriving DecidableEq, Repr

/-- A party: who leads it, and who is in it. -/
structure Party where
  leader : PlayerId
  /-- The members, the leader first. -/
  roster : List PlayerId
  deriving DecidableEq, Repr

/-- Players, parties, reactors and the ground. -/
structure World where
  /-- Connected players by their numbers. -/
  players : Table PlayerId Profile
  /-- Parties by their leaders. -/
  parties : Table PlayerId Party
  /-- Where reactors were placed. -/
  reactors : Table ReactorSpot Position
  /-- What lies on each map, oldest first. -/
  ground : Table MapId (List DropPlacement)

namespace World

/-- No player, no party, no reactor and nothing on the ground. -/
def empty : World := ⟨.empty, .empty, .empty, .empty⟩

instance : Inhabited World := ⟨empty⟩

/-- Adds a player, replacing the one with the same number. -/
def upsertPlayer (world : World) (player : PlayerView) : World :=
  { world with players := world.players.insert player.id ⟨player.name, player.level, player.map⟩ }

/-- The player of that number. -/
def player? (world : World) (id : PlayerId) : Option PlayerView :=
  (world.players.find? id).map fun profile => ⟨id, profile.name, profile.level, profile.map⟩

/-- The map on which a player stands. -/
def playerMap? (world : World) (id : PlayerId) : Option MapId := (world.player? id).map (·.map)

/-- The map of that number; every map exists. -/
def map (_ : World) (id : MapId) : MapView := ⟨id⟩

/-- Takes a player out of their party; the party that they lead is disbanded instead. -/
def leaveParty (world : World) (player : PlayerId) : World :=
  if world.parties.contains player then { world with parties := world.parties.erase player }
  else
    { world with
      parties := world.parties.mapValues fun party =>
        { party with roster := party.roster.filter (· != player) } }

/-- Forms a party: the leader first, then the others. All leave the parties they were in. -/
def formParty (world : World) (leader : PlayerId) (members : List PlayerId) : World :=
  let roster := leader :: members.filter (· != leader)
  let world := roster.foldl leaveParty world
  { world with parties := world.parties.insert leader ⟨leader, roster⟩ }

/-- Takes a player out of their party and out of the world. -/
def removePlayer (world : World) (id : PlayerId) : World :=
  let world := world.leaveParty id
  { world with players := world.players.erase id }

/-- The party on whose roster the player is. -/
def party? (world : World) (id : PlayerId) : Option Party :=
  world.parties.values.find? fun party => party.roster.contains id

/-- The roster entry of a connected player. -/
def member? (world : World) (id : PlayerId) : Option PartyMember :=
  (world.player? id).map fun player => ⟨player.id, player.map, player.level⟩

/-- The player's party, with its connected members in roster order. -/
def partyOf? (world : World) (id : PlayerId) : Option PartyView :=
  (world.party? id).map fun party => ⟨party.leader, party.roster.filterMap world.member?⟩

/-- Places a reactor on a map. -/
def placeReactor (world : World) (spot : ReactorSpot) (position : Position) : World :=
  { world with reactors := world.reactors.insert spot position }

/-- Where the drops of a trigger land: at its reactor, or at the origin of the map for an NPC and for
a reactor that was never placed. -/
def dropPoint (world : World) (trigger : Trigger) : Position :=
  match trigger.kind with
  | .reactor => (world.reactors.find? ⟨trigger.map, ⟨trigger.key.id⟩⟩).getD .origin
  | .npc => .origin

/-- What lies on a map, oldest first. -/
def groundDrops (world : World) (map : MapId) : List DropPlacement :=
  (world.ground.find? map).getD []

/-- Empties a map. -/
def clearGround (world : World) (map : MapId) : World :=
  { world with ground := world.ground.erase map }

/-- What lies on a map, and the world once it is picked up. -/
def pickUp (world : World) (map : MapId) : List DropPlacement × World :=
  (world.groundDrops map, world.clearGround map)

/-- Puts drops on a map, behind those that lie there. -/
def addDrops (world : World) (map : MapId) (drops : List DropPlacement) : World :=
  { world with ground := world.ground.insert map (world.groundDrops map ++ drops) }

/-- Carries out an effect. Chat changes nothing, and a player who left is not moved. -/
def apply (world : World) (origin : Origin) : Effect → World
  | .chat _ => world
  | .changeMap map _ =>
    { world with players := world.players.modify origin.player fun profile => { profile with map } }
  | .dropItems request =>
    world.addDrops origin.trigger.map (request.layout (world.dropPoint origin.trigger))

end World

end Encounter
