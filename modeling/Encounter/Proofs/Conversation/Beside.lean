import Encounter.Proofs.Conversation.Turn
import Encounter.Proofs.World.Warp
import Encounter.Proofs.Script.Warps

/-!
# A turn beside other sessions

A script has its turn while other sessions wait, perhaps one of the same player. When the engine rests
again, those are as they were, and the session whose turn it was either waits on its prompt or is
gone.
-/

namespace Encounter

/-- Without a warp among the effects the player stays in place. -/
theorem World.playerMap?_foldl_apply {effects : List Effect}
    (h : ∀ effect ∈ effects, effect.isWarp = false) (world : World) (subject : Subject) :
    (effects.foldl (fun world effect => world.apply ⟨subject.player, subject.trigger⟩ effect)
      world).playerMap? subject.player = world.playerMap? subject.player := by
  induction effects generalizing world with
  | nil => rfl
  | cons effect effects ih =>
    obtain ⟨hfirst, hrest⟩ := List.forall_mem_cons.1 h
    have hstays : (Event.mk subject (.effected effect)).warp? = none := by
      cases effect with
      | changeMap map portal => cases hfirst
      | _ => rfl
    rw [List.foldl_cons, ih hrest, playerMap?_apply, hstays]
    exact Option.map_id'

namespace Engine

variable {engine : Engine} {subject : Subject} {script : Script Unit} {effects : List Effect}

/-- Only the session whose turn it is changes. It is gone in the end, or it waits where its script
stops; and the world had the effects up to there. -/
theorem HasTurn.rests_beside (h : HasTurn engine subject script) (hs : script.NeverParks)
    (hfound : engine.table.find? subject.session = some (subject.inPhase .running)) :
    ∃ effects stop, script.advance = (effects, stop) ∧
      engine.settle.world = effects.foldl
        (fun world effect => world.apply ⟨subject.player, subject.trigger⟩ effect) engine.world ∧
      ∀ id session, engine.settle.table.find? id = some session →
        id ≠ subject.session ∧ engine.table.find? id = some session ∨
        id = subject.session ∧ ∃ prompt next, stop = .asking prompt next ∧
          session = subject.inPhase (.suspended prompt next) := by
  obtain ⟨effects, result, hstop⟩ | ⟨effects, prompt, next, hstop⟩ := hs.advance_cases
  · have hdone : (engine.taskDone subject effects).table.find? subject.session = _ := hfound
    have hsettle : engine.settle = (engine.taskDone subject effects).conclude subject.session
        (subject.inPhase .running) (.ofResult result) := by
      rw [h.settle_of_ended hstop, finish_of_queue_nil hdone rfl]
      exact settle_of_quiet (h.step?_eq_none rfl rfl)
    refine ⟨effects, _, hstop, by rw [hsettle]; rfl, ?_⟩
    intro id session hf
    rw [hsettle] at hf
    have hf := (engine.table.find?_remove subject.session id _).symm.trans hf
    split at hf
    · cases hf
    · next hne => exact .inl ⟨hne, hf⟩
  · have hdone : (engine.taskDone subject effects).table.find? subject.session = _ := hfound
    obtain ⟨-, hshown⟩ | ⟨-, hcut⟩ := suspend_cases hdone prompt next
    · have hsettle : engine.settle = (engine.taskDone subject effects).await subject.session
          (subject.inPhase .running) prompt next := by
        rw [h.settle_of_asking hstop, hshown]
        exact settle_of_quiet (h.step?_eq_none rfl rfl)
      refine ⟨effects, _, hstop, by rw [hsettle]; rfl, ?_⟩
      intro id session hf
      rw [hsettle] at hf
      have hf := (engine.table.find?_setPhase subject.session id _).symm.trans hf
      split at hf
      · next hid =>
        rw [hfound] at hf
        exact .inr ⟨hid, prompt, next, rfl, (Option.some.inj hf).symm⟩
      · next hne => exact .inl ⟨hne, hf⟩
    · have hsettle : engine.settle =
          (engine.taskDone subject effects).cancel subject.session .conversationOpen := by
        rw [h.settle_of_asking hstop, hcut]
        exact settle_of_quiet ((severs_cancel hdone _).quiet (h.step?_eq_none rfl rfl))
      refine ⟨effects, _, hstop, ?_, ?_⟩
      · rw [hsettle, (severs_cancel hdone .conversationOpen).world]
        rfl
      · intro id session hf
        rw [hsettle, find?_cancel] at hf
        split at hf
        · cases hf
        · next hne => exact .inl ⟨hne, hf⟩

end Engine
end Encounter
