import Encounter.Proofs.Chronicle.Faithful
import Encounter.Proofs.Engine.Order
import Encounter.Proofs.Queue.Fate

/-!
# Admissions in runs of operations

A run of operations admits what its requests admit, as the engine admits nothing on its own account.
So a run that admits no trigger gives away no number. Each active session was admitted once, so
there is a script for it.
-/

namespace Encounter
namespace Engine

variable {engine : Engine} {acts : List Act}

theorem admissions_append (engine : Engine) (acts others : List Act) :
    engine.admissions (acts ++ others) =
      engine.admissions acts ++ (engine.after acts).admissions others := by
  induction acts generalizing engine with
  | nil => rfl
  | cons act acts ih =>
    rw [List.cons_append, admissions, admissions, ih, List.append_assoc]
    rfl

/-- The engine admits nothing on its own account. -/
private theorem admissions_of_inner (engine : Engine) (h : ∀ act ∈ acts, act.IsInner) :
    engine.admissions acts = [] := by
  induction acts generalizing engine with
  | nil => rfl
  | cons act acts ih =>
    rw [List.forall_mem_cons] at h
    have hnone : engine.admits act = [] := by
      cases act with
      | command command => exact absurd h.1 not_false
      | notice | poll | unpark | edit => rfl
    rw [admissions, hnone, ih _ h.2]
    rfl

/-- The subjects that a run of operations admits, in the order of their admission. -/
def admittedBy (engine : Engine) : List Operation → List Subject
  | [] => []
  | operation :: operations =>
    engine.admissions operation.requests ++ admittedBy (engine.operate operation) operations

theorem admittedBy_append (engine : Engine) (operations others : List Operation) :
    engine.admittedBy (operations ++ others) =
      engine.admittedBy operations ++ (engine.play operations).admittedBy others := by
  induction operations generalizing engine with
  | nil => rfl
  | cons operation operations ih =>
    rw [List.cons_append, admittedBy, admittedBy, ih, List.append_assoc]
    rfl

/-- A run of operations is a run of acts that admits the same. -/
private theorem exists_acts_play_admitting (engine : Engine) (operations : List Operation) :
    ∃ acts, engine.after acts = engine.play operations ∧
      engine.admissions acts = engine.admittedBy operations := by
  induction operations generalizing engine with
  | nil => exact ⟨[], rfl, rfl⟩
  | cons operation operations ih =>
    obtain ⟨inner, hinner, -, hoperate⟩ := engine.exists_acts_operate operation
    obtain ⟨acts, hplay, hadmitted⟩ := ih (engine.operate operation)
    refine ⟨operation.requests ++ inner ++ acts, ?_, ?_⟩
    · rw [after_append, hoperate, hplay]
      rfl
    · rw [admissions_append, hoperate, hadmitted, admissions_append,
        admissions_of_inner _ hinner, List.append_nil]
      rfl

/-- While a run admits no trigger, no number is given away. -/
theorem Reachable.next_play (h : engine.Reachable) {operations : List Operation}
    (hadmitted : engine.admittedBy operations = []) :
    (engine.play operations).table.next = engine.table.next := by
  obtain ⟨registry, world, acts, -, rfl⟩ := h
  obtain ⟨others, hplay, hothers⟩ :=
    ((new registry world).after acts).exists_acts_play_admitting operations
  obtain ⟨hbefore, -⟩ := accounted_after registry world acts
  obtain ⟨hafter, -⟩ := accounted_after registry world (acts ++ others)
  rw [after_append, admissions_append, hothers, hadmitted, List.append_nil, ← hbefore,
    hplay] at hafter
  exact congrArg SessionId.mk hafter

/-- There is a script for every active session. -/
theorem Reachable.bound (h : engine.Reachable) {id : SessionId} {session : Session}
    (hf : engine.table.find? id = some session) :
    (engine.registry.find? session.trigger.key).isSome := by
  obtain ⟨notes, hlog, htells⟩ := h.tells
  obtain ⟨registry, world, acts, -, rfl⟩ := h
  have hstart := (htells id).start_mem (SessionTable.info?_of_find? hf)
  -- The session started, so it is among those of its slot that were admitted.
  let subject : Subject := ⟨id, session.player, session.trigger⟩
  have hstarted : subject ∈
      forSlot subject.slot (starts ((new registry world).after acts).log) := by
    rw [hlog]
    apply List.mem_filter.2
    refine ⟨List.mem_map.2 ⟨_, List.mem_filter.2 ⟨hstart, ?_⟩, rfl⟩, ?_⟩ <;> simp
  obtain ⟨-, -, haccounted⟩ := accounted_after registry world acts
  obtain ⟨past, hpast, horder, -⟩ := haccounted subject.slot
  have hadmitted : subject ∈ forSlot subject.slot ((new registry world).admissions acts) := by
    rw [hpast]
    exact List.mem_append_left _ (horder.subset hstarted)
  rw [registry_after]
  exact bound_of_mem_admissions (List.mem_filter.1 hadmitted).1

end Engine
end Encounter
