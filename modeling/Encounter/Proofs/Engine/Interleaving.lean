import Encounter.Proofs.Chronicle.Move
import Encounter.Proofs.Session.Dialogue

/-!
# Commands, notices and tasks in any order

`Engine.after` carries out acts in whatever order they come. Commands need not wait for tasks to
come to rest, and any notice may arrive at any time, also a late one about a session that is gone.
In every state so reached index and sessions fit together, and no player has two open dialogues.
-/

namespace Encounter

/-- Something that may happen to the engine next. -/
inductive Act where
  /-- A client sends a command. -/
  | command (command : Command)
  /-- A notice is handled, of whatever session; `rest` are the notices that wait afterwards. -/
  | notice (notice : Notice) (rest : List Notice)
  /-- The task of a session runs to its next stop. -/
  | poll (id : SessionId)
  /-- The parked task of a session may go on. -/
  | unpark (id : SessionId)
  /-- The world changes from outside. -/
  | edit (edit : World → World)

namespace Engine

/-- Carries out an act. A session without a task has nothing to poll or to unpark. -/
def act (engine : Engine) : Act → Engine
  | .command command => (engine.handle command).1
  | .notice notice rest => { engine with notices := rest }.receive notice
  | .poll id =>
    match engine.tasks.find? id with
    | some task => engine.poll id task
    | none => engine
  | .unpark id =>
    { engine with tasks := engine.tasks.modify id fun task => { task with parked := false } }
  | .edit edit => engine.editWorld edit

/-- Carries out acts from left to right. -/
def after (engine : Engine) (acts : List Act) : Engine := acts.foldl act engine

theorem after_append (engine : Engine) (acts others : List Act) :
    engine.after (acts ++ others) = (engine.after acts).after others :=
  List.foldl_append

theorem after_snoc (engine : Engine) (acts : List Act) (act : Act) :
    engine.after (acts ++ [act]) = (engine.after acts).act act :=
  engine.after_append acts [act]

/-- Every act but a shutdown leaves the registry, and whether commands are accepted. -/
private theorem alike_act (engine : Engine) {act : Act} (h : act ≠ .command .shutdown) :
    Alike engine (engine.act act) := by
  cases act with
  | command command =>
    have hc : command ≠ .shutdown := fun he => h (congrArg Act.command he)
    exact engine.alike_handle hc
  | notice notice rest =>
    have hpopped : Alike engine { engine with notices := rest } := ⟨rfl, rfl⟩
    cases notice with
    | suspended id prompt resume => exact hpopped.trans (alike_suspend _ id prompt resume)
    | finished id result => exact hpopped.trans (alike_finish _ id result)
  | poll id =>
    unfold Engine.act
    dsimp only
    split
    · exact engine.alike_poll id _
    · exact .refl engine
  | unpark id => exact ⟨rfl, rfl⟩
  | edit edit => exact ⟨rfl, rfl⟩

/-- No act touches the registry. -/
theorem registry_act (engine : Engine) (act : Act) :
    (engine.act act).registry = engine.registry := by
  by_cases h : act = .command .shutdown
  · subst h
    exact engine.registry_handle .shutdown
  · exact (engine.alike_act h).registry

theorem registry_after (engine : Engine) (acts : List Act) :
    (engine.after acts).registry = engine.registry := by
  induction acts generalizing engine with
  | nil => rfl
  | cons act acts ih => exact (ih _).trans (engine.registry_act act)

/-- The engine refuses commands and has no session. -/
def IsShutDown (engine : Engine) : Prop :=
  engine.accepting = false ∧ ∀ id, engine.table.find? id = none

/-- Without sessions a notice has no effect. -/
private theorem receive_of_no_session {engine : Engine} (h : ∀ id, engine.table.find? id = none)
    (notice : Notice) : engine.receive notice = engine := by
  cases notice with
  | suspended id prompt resume => exact suspend_of_find?_eq_none (h id) prompt resume
  | finished id result => exact finish_of_find?_eq_none (h id) result

/-- A shutdown cuts off every session. -/
theorem isShutDown_shutdown (engine : Engine) : engine.shutdown.1.IsShutDown := by
  refine ⟨rfl, fun id => ?_⟩
  have hfind := engine.find?_cancelEach engine.table.ids .shutdown id
  refine hfind.trans ?_
  by_cases hid : id ∈ engine.table.ids
  · rw [if_pos hid]
  · rw [if_neg hid]
    exact Option.eq_none_iff_forall_ne_some.2 fun session hf =>
      hid (SessionTable.mem_ids_iff.2 ⟨session, hf⟩)

/-- An engine that is shut down stays so. -/
theorem IsShutDown.act {engine : Engine} (h : engine.IsShutDown) (act : Act) :
    (engine.act act).IsShutDown := by
  cases act with
  | command command =>
    rw [Engine.act, handle_of_not_accepting h.1]
    exact h
  | notice notice rest =>
    rw [Engine.act, @receive_of_no_session { engine with notices := rest } h.2]
    exact h
  | poll id =>
    unfold Engine.act
    dsimp only
    split
    · refine ⟨(engine.alike_poll id _).accepting.trans h.1, ?_⟩
      rw [table_poll]
      exact h.2
    · exact h
  | unpark id => exact h
  | edit edit => exact h

theorem IsShutDown.after {engine : Engine} (h : engine.IsShutDown) (acts : List Act) :
    (engine.after acts).IsShutDown := by
  induction acts generalizing engine with
  | nil => exact h
  | cons act acts ih => exact ih (h.act act)

/-- At any time the engine accepts commands or is shut down. -/
private theorem accepting_or_isShutDown_after {engine : Engine}
    (h : engine.accepting = true ∨ engine.IsShutDown) (acts : List Act) :
    (engine.after acts).accepting = true ∨ (engine.after acts).IsShutDown := by
  induction acts generalizing engine with
  | nil => exact h
  | cons act acts ih =>
    apply ih
    rcases h with haccepting | hdown
    · by_cases hs : act = .command .shutdown
      · subst hs
        refine .inr ?_
        rw [Engine.act, handle_shutdown haccepting]
        exact engine.isShutDown_shutdown
      · exact .inl ((engine.alike_act hs).accepting.trans haccepting)
    · exact .inr (hdown.act act)

/-- While a session is active the engine accepts commands. -/
theorem accepting_of_find?_after {engine : Engine} (h : engine.accepting = true) {acts : List Act}
    {id : SessionId} {session : Session} (hf : (engine.after acts).table.find? id = some session) :
    (engine.after acts).accepting = true := by
  rcases accepting_or_isShutDown_after (.inl h) acts with haccepting | ⟨-, hnone⟩
  · exact haccepting
  · rw [hnone] at hf
    cases hf

/-- Every act moves the table along its changes. -/
theorem changes_act (engine : Engine) (act : Act) :
    SessionTable.Changes engine.table (engine.act act).table := by
  cases act with
  | command command =>
    obtain ⟨events, hm⟩ := engine.moves_handle command
    exact hm.changes
  | notice notice rest =>
    -- The notice is handled as if it had just been the oldest one.
    have hnext : Proceeds { engine with notices := notice :: rest }
        (({ engine with notices := rest } : Engine).receive notice) := proceeds_receive rfl rfl
    obtain ⟨events, hm⟩ := hnext
    exact hm.changes
  | poll id =>
    unfold Engine.act
    dsimp only
    cases engine.tasks.find? id with
    | none => exact .refl
    | some task =>
      dsimp only
      rw [table_poll]
  | unpark id => exact .refl
  | edit edit => exact .refl

/-- Acts in any order move the table along its changes. -/
theorem changes_after (engine : Engine) (acts : List Act) :
    SessionTable.Changes engine.table (engine.after acts).table := by
  induction acts generalizing engine with
  | nil => exact .refl
  | cons act acts ih => exact (engine.changes_act act).trans (ih _)

/-- Whatever happens in whatever order, each active session is indexed under its player and key and
each index entry leads to such a session, so that one player has one session of a key; queues hold
triggers of the key of their session; and all numbers in the table and in queues are distinct and
were given away. -/
theorem table_wf_after (registry : Registry) (world : World) (acts : List Act) :
    ((new registry world).after acts).table.WF ∧
      ∀ id other session found,
        ((new registry world).after acts).table.find? id = some session →
        ((new registry world).after acts).table.find? other = some found →
        session.player = found.player → session.trigger.key = found.trigger.key → id = other := by
  have hwf : ((new registry world).after acts).table.WF :=
    (changes_after (new registry world) acts).wf SessionTable.wf_empty
  refine ⟨hwf, ?_⟩
  intro id other session found hid hother hplayer hkey
  have hslot : session.slot = found.slot := by
    unfold Session.slot
    rw [hplayer, hkey]
  have hi := hwf.bySlot_of_find? id session hid
  rw [hslot, hwf.bySlot_of_find? other found hother] at hi
  exact (Option.some.inj hi).symm

/-- Whatever happens in whatever order, a player has at most one open dialogue. So there is only one
session that an accepted reply can resume, and only one that a move can cut off; all other sessions
of the player and of others stay as they are. -/
theorem one_dialogue_after (registry : Registry) (world : World) (acts : List Act)
    (player : PlayerId) :
    let engine := (new registry world).after acts
    (∀ id other, engine.table.Open player id → engine.table.Open player other → id = other) ∧
    (∀ reply, (engine.respond player reply).2 = .ok () →
      ∃ id, (∀ other, engine.table.Open player other ↔ other = id) ∧
        (engine.respond player reply).1.table = engine.table.setPhase id .running) ∧
    (∀ map, (engine.playerMoved player map).2 = true →
      ∃ id, (∀ other, engine.table.Open player other ↔ other = id) ∧
        (engine.playerMoved player map).1 = engine.cancel id .mapChanged) := by
  intro engine
  have hone : engine.table.OneDialogue :=
    (changes_after (new registry world) acts).oneDialogue SessionTable.oneDialogue_empty
  refine ⟨hone player, ?_, ?_⟩
  · intro reply hr
    obtain ⟨id, session, prompt, next, hs, -, -, he⟩ | ⟨error, he⟩ :=
      engine.respond_cases player reply
    · refine ⟨id, hone.open_iff hs, ?_⟩
      rw [he]
      rfl
    · rw [he] at hr
      cases hr
  · intro map hm
    obtain ⟨id, session, hs, -, he⟩ | he := engine.playerMoved_cases player map
    · refine ⟨id, hone.open_iff hs, ?_⟩
      rw [he]
    · rw [he] at hm
      cases hm

end Engine
end Encounter
