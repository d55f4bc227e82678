import Encounter.Proofs.World.Party

/-!
# Many players at once

Players who come together stand on one map afterwards, and those who go away together are known no
more; nobody else is touched. The snapshot of a party shows its connected members in the order of
the roster, each on the map on which the member stands.
-/

namespace Encounter
namespace World

variable (world : World)

theorem playerMap?_eq (id : PlayerId) :
    world.playerMap? id = (world.players.find? id).map Profile.map := by
  simp only [playerMap?, player?, Option.map_map, Function.comp_def]

/-- Whoever stands somewhere is known, and the other way round. -/
theorem isSome_player?_iff {id : PlayerId} :
    (world.player? id).isSome ↔ (world.playerMap? id).isSome := by
  rw [playerMap?, Option.isSome_map]

theorem playerMap?_upsertPlayer (player : PlayerView) (id : PlayerId) :
    (world.upsertPlayer player).playerMap? id =
      if id = player.id then some player.map else world.playerMap? id := by
  have hfind :=
    Table.find?_insert world.players player.id id ⟨player.name, player.level, player.map⟩
  simp only [playerMap?_eq, upsertPlayer, hfind]
  split <;> rfl

/-- Those who come together stand on one map; all others stay where they are. -/
theorem playerMap?_foldl_upsertPlayer {view : PlayerId → PlayerView} {map : MapId}
    (hview : ∀ id, (view id).id = id ∧ (view id).map = map) (ids : List PlayerId) (id : PlayerId) :
    (ids.foldl (fun world id => world.upsertPlayer (view id)) world).playerMap? id =
      if id ∈ ids then some map else world.playerMap? id := by
  induction ids generalizing world with
  | nil => rfl
  | cons first ids ih =>
    obtain ⟨hid, hmap⟩ := hview first
    rw [List.foldl_cons, ih, playerMap?_upsertPlayer, hid, hmap]
    by_cases hfirst : id = first <;> simp [hfirst]

/-- Those who come do not touch parties. -/
theorem parties_foldl_upsertPlayer (view : PlayerId → PlayerView) (ids : List PlayerId) :
    (ids.foldl (fun world id => world.upsertPlayer (view id)) world).parties = world.parties := by
  induction ids generalizing world with
  | nil => rfl
  | cons first ids ih => exact ih (world.upsertPlayer (view first))

private theorem playerMap?_removePlayer (gone id : PlayerId) :
    (world.removePlayer gone).playerMap? id = if id = gone then none else world.playerMap? id := by
  have hfind := Table.find?_erase (world.leaveParty gone).players gone id
  rw [players_leaveParty] at hfind
  simp only [playerMap?_eq, removePlayer, players_leaveParty, hfind]
  split <;> rfl

/-- Those who go away together stand nowhere; all others stay where they are. -/
theorem playerMap?_foldl_removePlayer (ids : List PlayerId) (id : PlayerId) :
    (ids.foldl removePlayer world).playerMap? id =
      if id ∈ ids then none else world.playerMap? id := by
  induction ids generalizing world with
  | nil => rfl
  | cons first ids ih =>
    rw [List.foldl_cons, ih, playerMap?_removePlayer]
    by_cases hfirst : id = first <;> simp [hfirst]

@[simp] theorem playerMap?_leaveParty (gone id : PlayerId) :
    (world.leaveParty gone).playerMap? id = world.playerMap? id := by
  simp only [playerMap?_eq, players_leaveParty]

@[simp] theorem playerMap?_formParty (leader : PlayerId) (members : List PlayerId) (id : PlayerId) :
    (world.formParty leader members).playerMap? id = world.playerMap? id := by
  simp only [playerMap?_eq, (world.tables_formParty leader members).1]

/-- The entry of a member shows the map on which the member stands. -/
theorem of_member?_eq_some {id : PlayerId} {member : PartyMember}
    (h : world.member? id = some member) :
    member.id = id ∧ world.playerMap? id = some member.map := by
  obtain ⟨player, hplayer, rfl⟩ := Option.map_eq_some_iff.1 h
  refine ⟨id_of_player?_eq_some hplayer, ?_⟩
  rw [playerMap?, hplayer, Option.map_some]

/-- Every member who is known has an entry. -/
private theorem exists_member? {id : PlayerId} (h : (world.playerMap? id).isSome) :
    ∃ member, world.member? id = some member := by
  rw [← isSome_player?_iff] at h
  obtain ⟨player, hplayer⟩ := Option.isSome_iff_exists.1 h
  exact ⟨⟨player.id, player.map, player.level⟩, by rw [member?, hplayer, Option.map_some]⟩

/-- If all on a roster are known, its entries are theirs, in order. -/
theorem map_id_filterMap_member? {roster : List PlayerId}
    (h : ∀ id ∈ roster, (world.playerMap? id).isSome) :
    (roster.filterMap world.member?).map PartyMember.id = roster := by
  induction roster with
  | nil => rfl
  | cons id roster ih =>
    obtain ⟨hid, hroster⟩ := List.forall_mem_cons.1 h
    obtain ⟨member, hmember⟩ := world.exists_member? hid
    rw [List.filterMap_cons, hmember, List.map_cons, ih hroster,
      (world.of_member?_eq_some hmember).1]

/-- The entries show all members on a map exactly if all on the roster stand there. -/
theorem forall_mem_filterMap_member?_iff {roster : List PlayerId}
    (h : ∀ id ∈ roster, (world.playerMap? id).isSome) {map : MapId} :
    (∀ member ∈ roster.filterMap world.member?, member.map = map) ↔
      ∀ id ∈ roster, world.playerMap? id = some map := by
  constructor
  · intro hall id hid
    obtain ⟨member, hmember⟩ := world.exists_member? (h id hid)
    rw [(world.of_member?_eq_some hmember).2, hall member (List.mem_filterMap.2 ⟨id, hid, hmember⟩)]
  · intro hall member hm
    obtain ⟨id, hid, hmember⟩ := List.mem_filterMap.1 hm
    have hmap := (world.of_member?_eq_some hmember).2
    rw [hall id hid] at hmap
    exact (Option.some.inj hmap).symm

end World
end Encounter
