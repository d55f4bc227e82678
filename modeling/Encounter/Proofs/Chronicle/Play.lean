import Encounter.Proofs.Chronicle.Basic
import Encounter.Proofs.Engine.Standing

/-!
# What a run leaves as it is

A run of operations ends in a quiet engine with the same registry, and the engine still accepts
commands unless one of them was a shutdown.
-/

namespace Encounter
namespace Engine

theorem play_append (engine : Engine) (operations others : List Operation) :
    engine.play (operations ++ others) = (engine.play operations).play others :=
  List.foldl_append

/-- A run of operations ends in a quiet engine. -/
theorem quiet_play {engine : Engine} (h : engine.step? = none) (operations : List Operation) :
    (engine.play operations).step? = none := by
  induction operations generalizing engine with
  | nil => exact h
  | cons operation operations ih =>
    apply ih
    cases operation with
    | command command => exact step?_settle _
    | edit change =>
      obtain ⟨hnotices, htasks⟩ := step?_eq_none_iff.1 h
      exact step?_eq_none_iff.2 ⟨hnotices, htasks⟩
    | release slot =>
      show (engine.release slot).1.step? = none
      unfold release
      split
      · exact h
      · split
        · split
          · exact step?_settle _
          · exact h
        · exact h

/-- Every operation but a shutdown leaves the registry, and whether commands are accepted. -/
theorem alike_operate (engine : Engine) {operation : Operation}
    (h : operation ≠ .command .shutdown) : Alike engine (engine.operate operation) := by
  cases operation with
  | release slot => exact engine.alike_release slot
  | edit change => exact ⟨rfl, rfl⟩
  | command command =>
    have hc : command ≠ .shutdown := fun he => h (congrArg Operation.command he)
    exact (engine.alike_handle hc).trans (alike_settle _)

theorem alike_play (engine : Engine) {operations : List Operation}
    (h : .command .shutdown ∉ operations) : Alike engine (engine.play operations) := by
  induction operations generalizing engine with
  | nil => exact .refl engine
  | cons operation operations ih =>
    rw [List.mem_cons, not_or] at h
    obtain ⟨hfirst, hrest⟩ := h
    exact (engine.alike_operate (Ne.symm hfirst)).trans (ih _ hrest)

/-- A run with a shutdown ends in an engine that refuses commands. -/
theorem accepting_play_of_shutdown (engine : Engine) {operations : List Operation}
    (h : .command .shutdown ∈ operations) : (engine.play operations).accepting = false := by
  -- Once the engine refuses commands it never accepts them again.
  have hstays : ∀ (operations : List Operation) (engine : Engine), engine.accepting = false →
      (engine.play operations).accepting = false := by
    intro operations
    induction operations with
    | nil => exact fun _ h => h
    | cons operation operations ih =>
      intro engine hclosed
      apply ih
      cases operation with
      | release slot => exact (engine.alike_release slot).accepting.trans hclosed
      | edit change => exact hclosed
      | command command =>
        have hs := (engine.handle command).1.alike_settle.accepting
        rw [handle_of_not_accepting hclosed] at hs
        show (engine.handle command).1.settle.accepting = false
        rw [handle_of_not_accepting hclosed]
        exact hs.trans hclosed
  obtain ⟨before, after, rfl⟩ := List.append_of_mem h
  unfold play
  rw [List.foldl_append]
  apply hstays after
  exact (alike_settle _).accepting.trans (accepting_handle_shutdown _)

end Engine
end Encounter
