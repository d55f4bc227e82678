import Encounter.Proofs.Chronicle.WellFormed
import Encounter.Proofs.Engine.Work

/-!
# Somebody is at work for every running session

A session that runs has a task, or its task has stopped and the notice of that still waits. Each
operation of the engine keeps it so: a session loses its task only together with its place in the table
or to a notice, and a notice that is handled makes its session wait for an answer or end.
-/

namespace Encounter
namespace Engine

/-- If the session of that number runs, it has a task, or a notice about it waits. -/
def Staffed (engine : Engine) (id : SessionId) : Prop :=
  ∀ session, engine.table.find? id = some session → session.phase = .running →
    (∃ task, engine.tasks.find? id = some task) ∨ 0 < engine.pending id

variable {engine next : Engine} {id other : SessionId}

/-- A session does not have to be staffed anew where its task and notices stay and it ran before. -/
theorem Staffed.keep (h : engine.Staffed id)
    (hsession : ∀ session, next.table.find? id = some session → session.phase = .running →
      ∃ old, engine.table.find? id = some old ∧ old.phase = .running)
    (htask : next.tasks.find? id = engine.tasks.find? id)
    (hpending : next.pending id = engine.pending id) : next.Staffed id := by
  intro session hf hphase
  obtain ⟨old, hold, hran⟩ := hsession session hf hphase
  rw [htask, hpending]
  exact h old hold hran

/-- A number where session, task and notices stay. -/
theorem Staffed.congr (h : engine.Staffed id)
    (hsession : next.table.find? id = engine.table.find? id)
    (htask : next.tasks.find? id = engine.tasks.find? id)
    (hpending : next.pending id = engine.pending id) : next.Staffed id :=
  h.keep (fun session hf hphase => ⟨session, hsession ▸ hf, hphase⟩) htask hpending

theorem Staffed.of_task {task : Task} (h : engine.tasks.find? id = some task) :
    engine.Staffed id :=
  fun _ _ _ => .inl ⟨task, h⟩

private theorem Staffed.of_gone (h : engine.table.find? id = none) : engine.Staffed id := by
  intro session hf
  rw [h] at hf
  cases hf

theorem staffed_new (registry : Registry) (world : World) (id : SessionId) :
    (new registry world).Staffed id := .of_gone rfl

/-- A session starts with its task. -/
private theorem staffed_start (h : ∀ other, other ≠ id → engine.Staffed other) (view : PlayerView)
    (trigger : Trigger) (script : NamedScript) (queue : List QueuedTrigger) (other : SessionId) :
    (engine.start id view trigger script queue).Staffed other := by
  by_cases ho : other = id
  · subst ho
    exact .of_task (Table.find?_insert_self _ _ _)
  · apply (h other ho).congr
    · rw [table_start, SessionTable.find?_add, if_neg ho]
    · exact (Table.find?_insert _ _ _ _).trans (if_neg ho)
    · rfl

/-- Queueing a trigger leaves the phases. -/
theorem Staffed.enqueue (h : engine.Staffed other) (id : SessionId) (trigger : Trigger) :
    (engine.enqueue id trigger).Staffed other := by
  refine h.keep ?_ rfl rfl
  intro session hf hphase
  have hf := (engine.table.allocate.find?_enqueue id other ⟨_, trigger⟩).symm.trans hf
  split at hf
  · next he =>
    obtain ⟨old, hold, rfl⟩ := Option.map_eq_some_iff.1 hf
    exact ⟨old, he ▸ hold, hphase⟩
  · exact ⟨session, hf, hphase⟩

/-- A session that goes on gets its task. -/
private theorem staffed_resume (h : ∀ other, engine.Staffed other) (id : SessionId)
    (session : Session) (script : Script Unit) (other : SessionId) :
    (engine.resume id session script).Staffed other := by
  by_cases ho : other = id
  · subst ho
    exact .of_task (Table.find?_insert_self _ _ _)
  · apply (h other).congr
    · rw [find?_resume, if_neg ho]
    · exact (Table.find?_insert _ _ _ _).trans (if_neg ho)
    · rfl

/-- A session that is cut off is gone. -/
private theorem staffed_cancel (h : ∀ other, other ≠ id → engine.Staffed other)
    (reason : CancelReason) (other : SessionId) : (engine.cancel id reason).Staffed other := by
  have hfind := engine.find?_cancel id reason other
  by_cases ho : other = id
  · rw [if_pos ho] at hfind
    exact .of_gone hfind
  · rw [if_neg ho] at hfind
    cases hf : engine.table.find? id with
    | none =>
      rw [cancel_of_find?_eq_none hf]
      exact h other ho
    | some session =>
      apply (h other ho).congr hfind
      · rw [tasks_cancel hf, Table.find?_erase, if_neg ho]
      · exact pending_cancel engine id reason other

private theorem staffed_cancelEach (h : ∀ other, engine.Staffed other) (ids : List SessionId)
    (reason : CancelReason) : ∀ other, (engine.cancelEach ids reason).Staffed other := by
  induction ids generalizing engine with
  | nil => exact h
  | cons id ids ih => exact ih (staffed_cancel (fun other _ => h other) reason)

/-- A session that shows its prompt does not run. -/
private theorem staffed_await (h : ∀ other, other ≠ id → engine.Staffed other) {session : Session}
    {prompt : Prompt} {resume : prompt.kind.Answer → Script Unit} (other : SessionId) :
    (engine.await id session prompt resume).Staffed other := by
  have hfind : (engine.await id session prompt resume).table.find? other = _ :=
    engine.table.find?_setPhase id other (.suspended prompt resume)
  by_cases ho : other = id
  · rw [if_pos ho] at hfind
    intro found hf hphase
    rw [hfind] at hf
    obtain ⟨old, -, rfl⟩ := Option.map_eq_some_iff.1 hf
    cases hphase
  · rw [if_neg ho] at hfind
    exact (h other ho).congr hfind rfl rfl

private theorem staffed_suspend (h : ∀ other, other ≠ id → engine.Staffed other) (prompt : Prompt)
    (resume : prompt.kind.Answer → Script Unit) (other : SessionId) :
    (engine.suspend id prompt resume).Staffed other := by
  cases hf : engine.table.find? id with
  | none =>
    rw [suspend_of_find?_eq_none hf]
    by_cases ho : other = id
    · exact .of_gone (ho ▸ hf)
    · exact h other ho
  | some session =>
    obtain ⟨-, he⟩ | ⟨-, he⟩ := suspend_cases hf prompt resume
    · rw [he]
      exact staffed_await h other
    · rw [he]
      exact staffed_cancel h _ other

/-- A session that ends is gone. -/
private theorem staffed_conclude (h : ∀ other, other ≠ id → engine.Staffed other)
    (session : Session) (outcome : Outcome) (other : SessionId) :
    (engine.conclude id session outcome).Staffed other := by
  have hfind : (engine.conclude id session outcome).table.find? other = _ :=
    engine.table.find?_remove id other session
  by_cases ho : other = id
  · rw [if_pos ho] at hfind
    exact .of_gone hfind
  · rw [if_neg ho] at hfind
    exact (h other ho).congr hfind rfl rfl

private theorem staffed_finish (h : ∀ other, other ≠ id → engine.Staffed other)
    (result : Except ScriptError Unit) (other : SessionId) :
    (engine.finish id result).Staffed other := by
  cases hf : engine.table.find? id with
  | none =>
    rw [finish_of_find?_eq_none hf]
    by_cases ho : other = id
    · exact .of_gone (ho ▸ hf)
    · exact h other ho
  | some session =>
    have hconclude := staffed_conclude h session (.ofResult result)
    obtain ⟨first, others, script, view, -, -, -, he⟩ | ⟨-, he⟩ := finish_cases hf result
    · rw [he]
      exact staffed_start (fun other _ => hconclude other) view first.trigger script others other
    · rw [he]
      exact hconclude other

/-- With its notice a session loses what it was staffed with, but then it neither runs on nor stays. -/
private theorem staffed_receive {notice : Notice} {rest : List Notice}
    (h : ∀ other, engine.Staffed other) (hn : engine.notices = notice :: rest) (other : SessionId) :
    (({ engine with notices := rest } : Engine).receive notice).Staffed other := by
  have hothers : ∀ other, other ≠ notice.session →
      Staffed { engine with notices := rest } other := by
    intro other ho
    have hpending := pending_cons hn other
    rw [if_neg (Ne.symm ho)] at hpending
    exact (h other).congr rfl rfl hpending.symm
  cases notice with
  | suspended id prompt resume => exact staffed_suspend hothers prompt resume other
  | finished id result => exact staffed_finish hothers result other

/-- A task that is stored staffs its session. -/
theorem staffed_insert (h : ∀ other, engine.Staffed other) {task : Task}
    (htable : next.table = engine.table) (htasks : next.tasks = engine.tasks.insert id task)
    (hnotices : next.notices = engine.notices) (other : SessionId) : next.Staffed other := by
  by_cases ho : other = id
  · subst ho
    apply Staffed.of_task
    rw [htasks, Table.find?_insert_self]
  · apply (h other).congr
    · rw [htable]
    · rw [htasks, Table.find?_insert, if_neg ho]
    · unfold pending
      rw [hnotices]

/-- A task stops with a notice, or stays. -/
private theorem staffed_poll (h : ∀ other, engine.Staffed other) (id : SessionId) (task : Task)
    (other : SessionId) : (engine.poll id task).Staffed other := by
  obtain ⟨notice, hs, htasks, hnotices⟩ | ⟨script, htasks, hnotices⟩ := engine.poll_cases id task
  · have hp := pending_append hnotices other
    by_cases ho : other = id
    · rw [if_pos (hs.trans ho.symm)] at hp
      intro session hf hphase
      exact .inr (hp ▸ Nat.succ_pos _)
    · rw [hs, if_neg (Ne.symm ho)] at hp
      apply (h other).congr
      · rw [table_poll]
      · rw [htasks, Table.find?_erase, if_neg ho]
      · exact hp
  · exact staffed_insert h (table_poll _ _ _) htasks hnotices other

/-- Work keeps every running session staffed. -/
theorem Works.staffed (hw : Works engine next) (h : ∀ other, engine.Staffed other) :
    ∀ other, next.Staffed other := by
  cases hw with
  | receives notices => exact staffed_receive h notices
  | emits found => exact staffed_insert h rfl rfl rfl
  | stops found ready last => exact staffed_poll h _ _

/-- A command keeps every running session staffed. -/
theorem staffed_handle (h : ∀ other, engine.Staffed other) (command : Command) (other : SessionId) :
    (engine.handle command).1.Staffed other := by
  have hh := engine.handled command
  generalize (engine.handle command).1 = next at hh ⊢
  cases hh with
  | unchanged => exact h other
  | started =>
    have hallocated : ∀ other, Staffed { engine with table := engine.table.allocate } other :=
      fun other => (h other).congr rfl rfl rfl
    exact staffed_start (fun other _ => hallocated other) _ _ _ [] other
  | queued => exact (h other).enqueue _ _
  | resumed => exact staffed_resume h _ _ _ other
  | left => exact staffed_cancelEach h _ _ other
  | strayed => exact staffed_cancel (fun other _ => h other) _ other
  | closed => exact (staffed_cancelEach h engine.table.ids .shutdown other).congr rfl rfl rfl

end Engine
end Encounter
