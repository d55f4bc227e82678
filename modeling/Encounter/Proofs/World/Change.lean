import Encounter.World
import Encounter.Proofs.Table.Entries

/-!
# How the world changes

The world changes in seven ways: players come and go, parties are formed and left, reactors are
placed, the ground is cleared and effects are carried out. Each of the four tables of the world is
touched by some of these only; what they do to the lookups is listed here.
-/

namespace Encounter
namespace World

/-- One change of the world. -/
inductive Change where
  /-- A player comes, or comes anew with other data. -/
  | arrived (player : PlayerView)
  /-- A player goes. -/
  | departed (id : PlayerId)
  /-- A party is formed. -/
  | formed (leader : PlayerId) (members : List PlayerId)
  /-- A player leaves a party. -/
  | left (id : PlayerId)
  /-- A reactor is placed. -/
  | placed (spot : ReactorSpot) (position : Position)
  /-- Everything on a map is picked up. -/
  | cleared (map : MapId)
  /-- An effect is carried out. -/
  | effected (origin : Origin) (effect : Effect)

/-- Makes a change. -/
def change (world : World) : Change → World
  | .arrived player => world.upsertPlayer player
  | .departed id => world.removePlayer id
  | .formed leader members => world.formParty leader members
  | .left id => world.leaveParty id
  | .placed spot position => world.placeReactor spot position
  | .cleared map => (world.pickUp map).2
  | .effected origin effect => world.apply origin effect

/-- Makes changes from left to right. -/
def after (world : World) (changes : List Change) : World := changes.foldl change world

variable (world : World)

theorem after_append (changes others : List Change) :
    world.after (changes ++ others) = (world.after changes).after others :=
  List.foldl_append

@[simp] theorem parties_apply (origin : Origin) (effect : Effect) :
    (world.apply origin effect).parties = world.parties := by
  cases effect <;> rfl

/-- The world shows a player under the number asked for. -/
theorem id_of_player?_eq_some {world : World} {id : PlayerId} {view : PlayerView}
    (h : world.player? id = some view) : view.id = id := by
  unfold player? at h
  obtain ⟨profile, -, rfl⟩ := Option.map_eq_some_iff.1 h
  rfl

@[simp] theorem players_leaveParty (id : PlayerId) :
    (world.leaveParty id).players = world.players := by
  unfold leaveParty
  split <;> rfl

/-- An effect moves no player but the one for whom it is carried out. -/
theorem find?_players_apply {origin : Origin} {id : PlayerId} (h : id ≠ origin.player)
    (effect : Effect) : (world.apply origin effect).players.find? id = world.players.find? id := by
  cases effect with
  | chat text => rfl
  | changeMap map portal =>
    refine (Table.find?_modify _ _ _ _).trans ?_
    rw [if_neg h]
  | dropItems request => rfl

@[simp] theorem reactors_leaveParty (id : PlayerId) :
    (world.leaveParty id).reactors = world.reactors := by
  unfold leaveParty
  split <;> rfl

@[simp] theorem ground_leaveParty (id : PlayerId) :
    (world.leaveParty id).ground = world.ground := by
  unfold leaveParty
  split <;> rfl

/-- Forming a party does no more to players, reactors and the ground than leaving others does. -/
theorem tables_formParty (leader : PlayerId) (members : List PlayerId) :
    (world.formParty leader members).players = world.players ∧
      (world.formParty leader members).reactors = world.reactors ∧
      (world.formParty leader members).ground = world.ground := by
  have hleave : ∀ (ids : List PlayerId) (world : World),
      (ids.foldl leaveParty world).players = world.players ∧
        (ids.foldl leaveParty world).reactors = world.reactors ∧
        (ids.foldl leaveParty world).ground = world.ground := by
    intro ids
    induction ids with
    | nil => exact fun world => ⟨rfl, rfl, rfl⟩
    | cons id ids ih =>
      intro world
      obtain ⟨hplayers, hreactors, hground⟩ := ih (world.leaveParty id)
      exact ⟨hplayers.trans (world.players_leaveParty id),
        hreactors.trans (world.reactors_leaveParty id),
        hground.trans (world.ground_leaveParty id)⟩
  exact hleave (leader :: members.filter (· != leader)) world

end World
end Encounter
