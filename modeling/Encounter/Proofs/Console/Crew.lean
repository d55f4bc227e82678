import Encounter.Proofs.Console.Play

/-!
# The hero's party

The world behind the console holds the hero and the members of the hero's party and nobody else. The
hero leads the party if there is one, and its roster lists hero and members by their numbers. Each
command keeps it so; so the engine knows the hero whenever it is asked.
-/

namespace Encounter
namespace Console

/-- The players numbered from 1 on. -/
def numbered (count : Nat) : List PlayerId :=
  (List.range count).map fun i => ⟨UInt32.ofNat (i + 1)⟩

/-- The hero and the members of a party of that size. -/
def crew (partySize : Nat) : List PlayerId := hero :: memberIds partySize

/-- With a party or without one, the first players are the hero and the members. -/
theorem numbered_eq_crew (partySize : Nat) : numbered (max 1 partySize) = crew partySize := by
  have hsize : max 1 partySize = partySize - 1 + 1 := by omega
  rw [numbered, hsize, List.range_succ_eq_map, List.map_cons, List.map_map]
  rfl

/-- The numbers of few players are distinct. -/
theorem nodup_numbered {count : Nat} (h : count < UInt32.size) : (numbered count).Nodup := by
  refine List.pairwise_map.2 (List.nodup_range.imp_of_mem ?_)
  intro i j hi hj hne he
  rw [List.mem_range] at hi hj
  have hnat := congrArg (fun id : PlayerId => id.val.toNat) he
  simp only [UInt32.toNat_ofNat', UInt32.size] at hnat h
  omega

/-- The hero is not among the members. -/
private theorem hero_notMem_memberIds {partySize : Nat} (h : partySize < UInt32.size) :
    hero ∉ memberIds partySize := by
  have hcrew : (numbered (max 1 partySize)).Nodup :=
    nodup_numbered (by simp only [UInt32.size] at *; omega)
  rw [numbered_eq_crew] at hcrew
  exact (List.nodup_cons.1 hcrew).1

/-- A world with the hero and the members of a party of that size, and no other player or party; no
party if the size is 0. -/
structure Hosts (partySize : Nat) (world : World) : Prop where
  players : ∀ id, (world.playerMap? id).isSome ↔ id ∈ crew partySize
  parties : ∀ key, world.parties.find? key =
    if key = hero ∧ partySize ≠ 0 then some ⟨hero, crew partySize⟩ else none

namespace Hosts

variable {partySize : Nat} {world next : World}

/-- It is enough that the same players stand somewhere and the parties are the same. -/
theorem congr (h : Hosts partySize world)
    (hplayers : ∀ id, (next.playerMap? id).isSome = (world.playerMap? id).isSome)
    (hparties : next.parties = world.parties) : Hosts partySize next where
  players id := by rw [hplayers, h.players]
  parties key := by rw [hparties, h.parties]

/-- Only the hero leads a party. -/
theorem find?_eq_none (h : Hosts partySize world) {key : PlayerId} (hkey : key ≠ hero) :
    world.parties.find? key = none := by
  rw [h.parties, if_neg fun hboth => hkey hboth.1]

private theorem partiesWF (h : Hosts partySize world) : world.PartiesWF := by
  have hfound : ∀ key party, world.parties.find? key = some party →
      key = hero ∧ party = ⟨hero, crew partySize⟩ := by
    intro key party hparty
    rw [h.parties] at hparty
    split at hparty
    · next hkey => exact ⟨hkey.1, (Option.some.inj hparty).symm⟩
    · cases hparty
  constructor
  · intro key party hparty
    obtain ⟨rfl, rfl⟩ := hfound key party hparty
    exact ⟨rfl, rfl⟩
  · intro id key other party rival hparty hrival _ _
    rw [(hfound key party hparty).1, (hfound other rival hrival).1]

/-- Without a party size the hero has no party. -/
theorem partyOf?_eq_none (h : Hosts partySize world) (hsize : partySize = 0) :
    world.partyOf? hero = none := by
  refine World.partyOf?_eq_none_iff.2 fun key party hparty => ?_
  rw [h.parties, if_neg fun hboth => hboth.2 hsize] at hparty
  cases hparty

/-- The hero leads the party, and its snapshot shows hero and members. -/
theorem partyOf?_eq_some (h : Hosts partySize world) (hsize : partySize ≠ 0) :
    world.partyOf? hero = some ⟨hero, (crew partySize).filterMap world.member?⟩ := by
  have hparty : world.parties.find? hero = some ⟨hero, crew partySize⟩ := by
    rw [h.parties, if_pos ⟨rfl, hsize⟩]
  rw [World.partyOf?, h.partiesWF.party?_eq_some hparty List.mem_cons_self, Option.map_some]

/-- The hero is known. -/
theorem isSome_hero (h : Hosts partySize world) : (world.playerMap? hero).isSome :=
  (h.players hero).2 List.mem_cons_self

/-- What a command for the hero leads to takes nobody away. -/
theorem moved (h : Hosts partySize world) {events : List Event}
    (hparties : next.parties = world.parties)
    (hothers : ∀ id ≠ hero, next.playerMap? id = world.playerMap? id)
    (hhero : next.playerMap? hero = (world.playerMap? hero).map ((lastWarp events).getD ·)) :
    Hosts partySize next := by
  refine h.congr (fun id => ?_) hparties
  by_cases hid : id = hero
  · rw [hid, hhero, Option.isSome_map]
  · rw [hothers id hid]

end Hosts

section Parts

variable (console : Console)

/-- Hero and members come to the console's map; all others stay where they are. -/
theorem playerMap?_spawnPlayers (id : PlayerId) :
    console.spawnPlayers.world.playerMap? id =
      if id ∈ crew console.partySize then some console.map else console.world.playerMap? id := by
  let view : PlayerId → PlayerView := fun id =>
    ⟨id, "member" ++ toString id.val, console.level, console.map⟩
  have hview : ∀ id, (view id).id = id ∧ (view id).map = console.map := fun _ => ⟨rfl, rfl⟩
  refine (World.playerMap?_foldl_upsertPlayer _ hview (memberIds console.partySize) id).trans ?_
  rw [World.playerMap?_upsertPlayer]
  by_cases hid : id = hero <;> simp [hid, crew]

private theorem parties_spawnPlayers : console.spawnPlayers.world.parties = console.world.parties :=
  World.parties_foldl_upsertPlayer _ _ _

private theorem played_editWorld (h : console.engine.Played) (change : World → World) :
    (console.editWorld change).engine.Played := h.edit change

/-- The members stand nowhere; the hero stays. -/
theorem playerMap?_removeMembers (id : PlayerId) :
    console.removeMembers.world.playerMap? id =
      if id ∈ memberIds console.partySize then none else console.world.playerMap? id :=
  console.world.playerMap?_foldl_removePlayer _ id

/-- A new party is of one at least, and not larger than the console allows. -/
private theorem partySize_formParty (size : Nat) :
    (console.formParty size).1.partySize ≠ 0 ∧ (console.formParty size).1.partySize ≤ maxParty := by
  refine ⟨?_, Nat.min_le_right _ _⟩
  show min (max 1 size) maxParty ≠ 0
  simp only [maxParty, PartyGate.maxPartySize]
  omega

/-- Whoever is in a new party comes to the console's map; those who were in the old one alone go. -/
theorem playerMap?_formParty (size : Nat) (id : PlayerId) :
    (console.formParty size).1.world.playerMap? id =
      if id ∈ crew (console.formParty size).1.partySize then some console.map
      else console.removeMembers.world.playerMap? id := by
  let formed := min (max 1 size) maxParty
  let fresh : Console := { console.removeMembers with partySize := formed }
  exact (World.playerMap?_formParty fresh.spawnPlayers.world hero (memberIds formed) id).trans
    (fresh.playerMap?_spawnPlayers id)

theorem playerMap?_formParty_of_mem {size : Nat} {id : PlayerId}
    (hid : id ∈ crew (console.formParty size).1.partySize) :
    (console.formParty size).1.world.playerMap? id = some console.map := by
  rw [playerMap?_formParty, if_pos hid]

end Parts

/-- A console with a party of a size that it can form, whose members are in the world with the hero,
and with an engine that was played from the start. -/
structure WF (console : Console) : Prop where
  size_le : console.partySize ≤ maxParty
  hosts : Hosts console.partySize console.world
  played : console.engine.Played

namespace WF

variable {console : Console}

/-- A party that the console can form has few members. -/
theorem hero_notMem (h : console.WF) : hero ∉ memberIds console.partySize := by
  have hsize := h.size_le
  refine hero_notMem_memberIds ?_
  simp only [maxParty, PartyGate.maxPartySize, UInt32.size] at *
  omega

/-- The world is changed, with the same players and the same parties. -/
theorem edit (h : console.WF) {change : World → World}
    (hplayers : ∀ id, ((change console.world).playerMap? id).isSome =
      (console.world.playerMap? id).isSome)
    (hparties : (change console.world).parties = console.world.parties) :
    (console.editWorld change).WF :=
  ⟨h.size_le, h.hosts.congr hplayers hparties, h.played.edit change⟩

/-- The engine is asked for something on behalf of the hero. -/
theorem ask (h : console.WF) (command : Encounter.Command)
    (hcommand : command.player? = some hero) : (console.ask command).WF := by
  obtain ⟨events, -, -, hparties, hothers, hhero⟩ := h.played.moves hcommand
  exact ⟨h.size_le, h.hosts.moved hparties hothers hhero, h.played.perform hcommand⟩

theorem spawnPlayers (h : console.WF) : console.spawnPlayers.WF := by
  refine h.edit (fun id => ?_) console.parties_spawnPlayers
  refine (congrArg Option.isSome (console.playerMap?_spawnPlayers id)).trans ?_
  split
  · next hid => exact ((h.hosts.players id).2 hid).symm
  · rfl

end WF

/-! ### Walks -/

/-- The console once hero and members have gone to another map. -/
def gone (console : Console) (map : MapId) : Console := { console with map := map }.spawnPlayers

/-- A walk to the map where the hero is leaves everybody in place. -/
theorem moveTo_of_here {console : Console} {map : MapId}
    (hhere : console.world.playerMap? hero = some map) :
    (console.moveTo map).1 = { console with map := map } := by
  unfold Console.moveTo
  rw [hhere]
  dsimp only [Option.getD_some]
  rw [if_pos rfl]

namespace WF

variable {console : Console}

/-- A walk from elsewhere takes all along and is reported. -/
theorem moveTo_of_away (h : console.WF) {map : MapId}
    (haway : console.world.playerMap? hero ≠ some map) :
    (console.moveTo map).1 = (console.gone map).ask (.playerMoved hero map) := by
  obtain ⟨here, hhere⟩ := Option.isSome_iff_exists.1 h.hosts.isSome_hero
  rw [hhere, ne_eq, Option.some_inj] at haway
  unfold Console.moveTo
  rw [hhere]
  dsimp only [Option.getD_some]
  rw [if_neg haway]
  rfl

theorem gone (h : console.WF) (map : MapId) : (console.gone map).WF :=
  spawnPlayers ⟨h.size_le, h.hosts, h.played⟩

theorem moveTo (h : console.WF) (map : MapId) : (console.moveTo map).1.WF := by
  by_cases hhere : console.world.playerMap? hero = some map
  · rw [moveTo_of_here hhere]
    exact ⟨h.size_le, h.hosts, h.played⟩
  · rw [h.moveTo_of_away hhere]
    exact (h.gone map).ask (.playerMoved hero map) rfl

theorem fire (h : console.WF) (trigger : Trigger) : (console.fire trigger).1.WF := by
  rw [fire_fst]
  exact (h.moveTo trigger.map).ask (.trigger hero trigger) rfl

/-! ### Parties -/

/-- Taking the members out of the world strikes them from all rosters. -/
private theorem parted_removeMembers (h : console.WF) :
    World.Parted (memberIds console.partySize) console.world console.removeMembers.world :=
  World.parted_foldl World.parted_removePlayer h.hosts.partiesWF _

/-- Without the members the hero is alone. -/
private theorem isSome_removeMembers (h : console.WF) (id : PlayerId) :
    (console.removeMembers.world.playerMap? id).isSome ↔ id = hero := by
  rw [playerMap?_removeMembers]
  split
  · next hid =>
    refine iff_of_false (fun hsome => by cases hsome) ?_
    rintro rfl
    exact h.hero_notMem hid
  · next hid =>
    rw [h.hosts.players, crew, List.mem_cons]
    exact or_iff_left hid

/-- Without the members nobody but the hero leads a party. -/
private theorem find?_removeMembers (h : console.WF) {key : PlayerId} (hkey : key ≠ hero) :
    console.removeMembers.world.parties.find? key = none := by
  rw [h.parted_removeMembers, h.hosts.find?_eq_none hkey, Option.map_none, ite_self]

theorem removeMembers (h : console.WF) : console.removeMembers.engine.Played :=
  h.played.edit fun world => (memberIds console.partySize).foldl World.removePlayer world

theorem leaveParty (h : console.WF) : console.leaveParty.1.WF := by
  have hparted := h.hosts.partiesWF.parted h.parted_removeMembers
  have hhosts : Hosts 0 (console.removeMembers.world.leaveParty hero) := by
    constructor
    · intro id
      rw [World.playerMap?_leaveParty, h.isSome_removeMembers]
      exact List.mem_singleton.symm
    · intro key
      rw [World.parted_leaveParty hparted hero key]
      by_cases hkey : key = hero
      · simp [hkey]
      · simp [hkey, h.find?_removeMembers hkey]
  exact ⟨Nat.zero_le _, hhosts, h.removeMembers.edit fun world => world.leaveParty hero⟩

/-- The hero leads the new party, and nobody else leads one. -/
theorem find?_formParty (h : console.WF) (size : Nat) (key : PlayerId) :
    (console.formParty size).1.world.parties.find? key =
      if key = hero then some ⟨hero, crew (console.formParty size).1.partySize⟩ else none := by
  let formed := min (max 1 size) maxParty
  let fresh : Console := { console.removeMembers with partySize := formed }
  have hhero : hero ∉ memberIds formed :=
    hero_notMem_memberIds (Nat.lt_of_le_of_lt (Nat.min_le_right _ _) (by decide))
  have hroster : (memberIds formed).filter (· != hero) = memberIds formed := by
    refine List.filter_eq_self.2 fun id hid => bne_iff_ne.2 ?_
    rintro rfl
    exact hhero hid
  have hparties : fresh.spawnPlayers.world.parties = console.removeMembers.world.parties :=
    fresh.parties_spawnPlayers
  have hparted := (h.hosts.partiesWF.parted h.parted_removeMembers).of_parties_eq hparties
  refine (World.find?_formParty hparted hero (memberIds formed) key).trans ?_
  rw [hroster, hparties]
  by_cases hkey : key = hero
  · rw [if_pos hkey, if_pos hkey]
    rfl
  · simp [hkey, h.find?_removeMembers hkey]

theorem formParty (h : console.WF) (size : Nat) : (console.formParty size).1.WF := by
  obtain ⟨hpos, hle⟩ := console.partySize_formParty size
  have hhosts : Hosts (console.formParty size).1.partySize (console.formParty size).1.world := by
    constructor
    · intro id
      rw [playerMap?_formParty]
      split
      · next hid => exact iff_of_true rfl hid
      · next hid =>
        refine iff_of_false (fun hsome => hid ?_) hid
        rw [(h.isSome_removeMembers id).1 hsome]
        exact List.mem_cons_self
    · intro key
      rw [h.find?_formParty]
      simp only [hpos, ne_eq, not_false_eq_true, and_true]
  exact ⟨hle, hhosts, (h.removeMembers.edit _).edit fun world =>
    world.formParty hero (memberIds (console.formParty size).1.partySize)⟩

theorem loot (h : console.WF) : console.loot.1.WF :=
  h.edit (fun _ => rfl) rfl

theorem sessions (h : console.WF) : console.sessions.1 = console := by
  rw [sessions_fst, Console.ask, h.played.sessions]

/-- Every command keeps hero and party as they should be. -/
theorem execute (h : console.WF) (command : Command) : (console.execute command).1.WF := by
  cases command with
  | npc id map => exact h.fire (.npc id map)
  | reactor id map => exact h.fire (.reactor id map)
  | reply reply =>
    rw [Console.execute, reply_fst]
    exact h.ask (.respond hero reply) rfl
  | move map => exact h.moveTo map
  | party size =>
    cases size with
    | some size => exact h.formParty size
    | none => exact h.leaveParty
  | loot => exact h.loot
  | disconnect =>
    rw [Console.execute, disconnect_fst]
    exact h.ask (.disconnect hero) rfl
  | sessions =>
    rw [Console.execute, h.sessions]
    exact h
  | help => exact h
  | quit => exact h

/-- The hero begins alone. -/
theorem alone (registry : Registry) (level : UInt8) :
    (Console.mk (.new registry .empty) level startMap 0).spawnPlayers.WF := by
  let console : Console := ⟨.new registry .empty, level, startMap, 0⟩
  have hhosts : Hosts 0 console.spawnPlayers.world := by
    constructor
    · intro id
      rw [playerMap?_spawnPlayers]
      split
      · next hid => exact iff_of_true rfl hid
      · next hid => exact iff_of_false (fun hsome => nomatch hsome) hid
    · intro key
      rw [parties_spawnPlayers, if_neg fun hboth => hboth.2 rfl]
      rfl
  exact ⟨Nat.zero_le _, hhosts, console.played_editWorld (.new registry) _⟩

/-- With the party of the configuration, if there is one, the console is ready for lines. -/
theorem start (config : Config) (registry : Registry) : (Console.start config registry).1.WF := by
  unfold Console.start
  cases config.partySize with
  | none => exact alone registry config.playerLevel
  | some size => exact (alone registry config.playerLevel).formParty size

theorem follow (h : console.WF) (lines : List String) : (console.follow lines).WF :=
  follow_induction h (fun _ command hwf => hwf.execute command) lines

end WF

end Console
end Encounter
