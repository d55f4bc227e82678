import Encounter.Proofs.World.Crowd
import Encounter.Proofs.Engine.Apart

/-!
# Where warps take a player

The effects of a player's sessions move nobody else, and the player only by warps. So after a
command the player stands where the last warp among the new events led, or where the player stood
before.
-/

namespace Encounter

/-- Where an event takes its player. -/
def Event.warp? (event : Event) : Option MapId :=
  match event.happening with
  | .effected (.changeMap map _) => some map
  | _ => none

/-- Where the last warp among events leads. -/
def lastWarp (events : List Event) : Option MapId := events.reverse.findSome? Event.warp?

theorem lastWarp_append (events others : List Event) :
    lastWarp (events ++ others) = (lastWarp others).or (lastWarp events) := by
  simp only [lastWarp, List.reverse_append, List.findSome?_append]

private theorem lastWarp_cons (event : Event) (events : List Event) :
    lastWarp (event :: events) = (lastWarp events).or event.warp? := by
  have hone : lastWarp [event] = event.warp? := by
    cases h : event.warp? <;> simp [lastWarp, h]
  rw [← hone]
  exact lastWarp_append [event] events

/-- Without warps there is no last one. -/
theorem lastWarp_eq_none {events : List Event} (h : ∀ event ∈ events, event.warp? = none) :
    lastWarp events = none :=
  List.findSome?_eq_none_iff.2 fun event hm => h event (List.mem_reverse.1 hm)

namespace World

/-- An effect moves the player for whom it is carried out if it is a warp. -/
theorem playerMap?_apply (world : World) (subject : Subject) (effect : Effect) :
    (world.apply ⟨subject.player, subject.trigger⟩ effect).playerMap? subject.player =
      (world.playerMap? subject.player).map
        ((Event.mk subject (.effected effect)).warp?.getD ·) := by
  cases effect with
  | chat text => exact Option.map_id'.symm
  | dropItems request => exact Option.map_id'.symm
  | changeMap map portal =>
    have hfind := Table.find?_modify world.players subject.player subject.player
      fun profile : Profile => { profile with map }
    rw [if_pos rfl] at hfind
    simp only [playerMap?_eq, apply, hfind, Option.map_map]
    rfl

/-- After the effects of a player's sessions the player stands where the last warp led. -/
theorem playerMap?_after_published {world : World} {player : PlayerId} {events : List Event}
    (h : ∀ event ∈ events, event.player = player) :
    (world.after (events.filterMap Event.change?)).playerMap? player =
      (world.playerMap? player).map ((lastWarp events).getD ·) := by
  induction events generalizing world with
  | nil => exact Option.map_id'.symm
  | cons event events ih =>
    obtain ⟨subject, happening⟩ := event
    obtain ⟨hfirst, hrest⟩ := List.forall_mem_cons.1 h
    have hplayer : subject.player = player := hfirst
    subst hplayer
    simp only [lastWarp_cons, Option.getD_or]
    cases happening with
    | effected effect =>
      have happly := world.playerMap?_apply subject effect
      refine (ih hrest).trans ((congrArg (Option.map _) happly).trans ?_)
      rw [Option.map_map]
      rfl
    | prompted | started | ended => exact ih hrest

end World

namespace Engine

variable {engine next : Engine} {player : PlayerId}

/-- What a player's sessions do leaves parties and everybody else in place and takes the player
where the last warp among the new events leads. -/
theorem Reports.moves (h : Reports player engine next) :
    ∃ events, next.log = engine.log ++ events ∧ (∀ event ∈ events, event.player = player) ∧
      next.world.parties = engine.world.parties ∧
      (∀ id ≠ player, next.world.playerMap? id = engine.world.playerMap? id) ∧
      next.world.playerMap? player =
        (engine.world.playerMap? player).map ((lastWarp events).getD ·) := by
  obtain ⟨events, hlog, hplayer, hworld⟩ := h
  have heffects : ∀ change ∈ events.filterMap Event.change?, ∃ origin effect,
      change = .effected origin effect ∧ origin.player = player := by
    intro change hm
    obtain ⟨subject, effect, hevent, rfl⟩ := mem_changes_iff.1 hm
    exact ⟨_, effect, rfl, hplayer _ hevent⟩
  obtain ⟨hparties, -, hplayers, -⟩ := engine.world.after_effects heffects
  refine ⟨events, hlog, hplayer, ?_, ?_, ?_⟩
  · rw [hworld, hparties]
  · intro id hid
    rw [hworld, World.playerMap?_eq, World.playerMap?_eq, hplayers id hid]
  · rw [hworld, World.playerMap?_after_published hplayer]

end Engine
end Encounter
