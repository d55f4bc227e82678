import Encounter.Proofs.Engine.Settle

/-!
# What stays as it is

No step and no command touches the registry, and only a shutdown makes the engine refuse commands.
`Engine.Handled` lists what a command does to the engine.
-/

namespace Encounter
namespace Engine

/-- Both engines have the same scripts, and both or none accept commands. -/
structure Alike (engine next : Engine) : Prop where
  registry : next.registry = engine.registry
  accepting : next.accepting = engine.accepting

theorem Alike.refl (engine : Engine) : Alike engine engine := ⟨rfl, rfl⟩

theorem Alike.trans {engine middle next : Engine} (h : Alike engine middle)
    (h' : Alike middle next) : Alike engine next :=
  ⟨h'.registry.trans h.registry, h'.accepting.trans h.accepting⟩

theorem alike_cancel (engine : Engine) (id : SessionId) (reason : CancelReason) :
    Alike engine (engine.cancel id reason) := by
  unfold cancel
  split <;> exact ⟨rfl, rfl⟩

private theorem alike_cancelEach (engine : Engine) (ids : List SessionId) (reason : CancelReason) :
    Alike engine (engine.cancelEach ids reason) := by
  induction ids generalizing engine with
  | nil => exact .refl engine
  | cons id ids ih => exact (engine.alike_cancel id reason).trans (ih _)

theorem alike_suspend (engine : Engine) (id : SessionId) (prompt : Prompt)
    (next : prompt.kind.Answer → Script Unit) : Alike engine (engine.suspend id prompt next) := by
  cases hf : engine.table.find? id with
  | none =>
    rw [suspend_of_find?_eq_none hf]
    exact .refl engine
  | some session =>
    obtain ⟨-, he⟩ | ⟨-, he⟩ := suspend_cases hf prompt next
    · rw [he]
      exact ⟨rfl, rfl⟩
    · rw [he]
      exact engine.alike_cancel id .conversationOpen

theorem alike_finish (engine : Engine) (id : SessionId) (result : Except ScriptError Unit) :
    Alike engine (engine.finish id result) := by
  cases hf : engine.table.find? id with
  | none =>
    rw [finish_of_find?_eq_none hf]
    exact .refl engine
  | some session =>
    obtain ⟨first, rest, script, view, -, -, -, he⟩ | ⟨-, he⟩ := finish_cases hf result
    · rw [he]
      exact ⟨rfl, rfl⟩
    · rw [he]
      exact ⟨rfl, rfl⟩

theorem alike_poll (engine : Engine) (id : SessionId) (task : Task) :
    Alike engine (engine.poll id task) := by
  cases h : task.script.advance with
  | mk effects stop =>
    cases stop with
    | ended result => rw [poll_of_ended h]; exact ⟨rfl, rfl⟩
    | asking prompt next => rw [poll_of_asking h]; exact ⟨rfl, rfl⟩
    | parked next => rw [poll_of_parked h]; exact ⟨rfl, rfl⟩

private theorem alike_of_step? {engine next : Engine} (h : engine.step? = some next) :
    Alike engine next := by
  obtain ⟨notice, rest, -, rfl⟩ | ⟨id, task, -, -, rfl⟩ := step?_cases h
  · have hdrop : Alike engine { engine with notices := rest } := ⟨rfl, rfl⟩
    cases notice with
    | suspended id prompt resume => exact hdrop.trans (alike_suspend _ id prompt resume)
    | finished id result => exact hdrop.trans (alike_finish _ id result)
  · exact engine.alike_poll id task

/-- Coming to rest changes neither. -/
theorem alike_settle (engine : Engine) : Alike engine engine.settle :=
  settle_induction (.refl engine) fun _ _ h hs => h.trans (alike_of_step? hs)

/-- After a shutdown every command is refused. -/
theorem handle_of_not_accepting {engine : Engine} (h : engine.accepting = false)
    (command : Command) : engine.handle command = (engine, .error .closed) := by
  unfold handle
  rw [h]
  rfl

/-- While commands are accepted, a trigger is looked at. -/
theorem handle_trigger {engine : Engine} (h : engine.accepting = true) (player : PlayerId)
    (trigger : Trigger) :
    engine.handle (.trigger player trigger) =
      ((engine.trigger player trigger).1, (engine.trigger player trigger).2.map .triggered) := by
  unfold handle
  rw [h]
  rfl

/-- A trigger whose slot is free and that no dialogue bars starts a session, if a script answers it
and the world knows the player. -/
theorem perform_trigger_of_free {engine : Engine} (h : engine.accepting = true) {player : PlayerId}
    {view : PlayerView} {trigger : Trigger} {script : NamedScript}
    (hfree : engine.table.inSlot? ⟨player, trigger.key⟩ = none)
    (hbar : engine.barring? player trigger.kind = none)
    (hscript : engine.registry.find? trigger.key = some script)
    (hview : engine.world.player? player = some view) :
    engine.perform (.trigger player trigger) =
      ((engine.startNext view trigger script).settle,
        .ok (.triggered (.started engine.table.next))) := by
  have htrigger : engine.trigger player trigger =
      (engine.startNext view trigger script, .ok (.started engine.table.next)) := by
    unfold Engine.trigger
    rw [hscript, hfree, hbar, hview]
  rw [perform, handle_trigger h, htrigger]
  rfl

/-- While commands are accepted, a reply goes to the open dialogue of its player. -/
theorem handle_respond {engine : Engine} (h : engine.accepting = true) (player : PlayerId)
    (reply : Reply) :
    engine.handle (.respond player reply) =
      ((engine.respond player reply).1, (engine.respond player reply).2.map fun _ => .resumed) := by
  unfold handle
  rw [h]
  rfl

/-- While commands are accepted, a player who is gone loses all sessions. -/
theorem handle_disconnect {engine : Engine} (h : engine.accepting = true) (player : PlayerId) :
    engine.handle (.disconnect player) =
      ((engine.disconnect player).1, .ok (.cancelled (engine.disconnect player).2)) := by
  unfold handle
  rw [h]
  rfl

/-- While commands are accepted, a move goes to the open dialogue of its player. -/
theorem handle_playerMoved {engine : Engine} (h : engine.accepting = true) (player : PlayerId)
    (map : MapId) :
    engine.handle (.playerMoved player map) =
      ((engine.playerMoved player map).1, .ok (.cancelled (engine.playerMoved player map).2)) := by
  unfold handle
  rw [h]
  rfl

/-- A shutdown is accepted once. -/
theorem handle_shutdown {engine : Engine} (h : engine.accepting = true) :
    engine.handle .shutdown = (engine.shutdown.1, .ok (.stopped engine.shutdown.2)) := by
  unfold handle
  rw [h]
  rfl

/-- What a command makes of the engine. -/
inductive Handled (engine : Engine) : Command → Engine → Prop where
  /-- The command is refused, or there is nothing to do. -/
  | unchanged {command : Command} : Handled engine command engine
  /-- A session starts in a free slot. -/
  | started {player : PlayerId} {trigger : Trigger} {script : NamedScript} {view : PlayerView}
      (bound : engine.registry.find? trigger.key = some script)
      (free : engine.table.inSlot? ⟨player, trigger.key⟩ = none)
      (unbarred : engine.barring? player trigger.kind = none)
      (known : engine.world.player? player = some view) :
      Handled engine (.trigger player trigger) (engine.startNext view trigger script)
  /-- A trigger waits behind the session of its slot. -/
  | queued {player : PlayerId} {trigger : Trigger} {id : SessionId} {session : Session}
      (taken : engine.table.inSlot? ⟨player, trigger.key⟩ = some (id, session))
      (runs : session.isSuspended = false) :
      Handled engine (.trigger player trigger) (engine.enqueue id trigger)
  /-- The open dialogue goes on with an answer that it accepts. -/
  | resumed {player : PlayerId} {reply : Reply} {id : SessionId} {session : Session}
      {prompt : Prompt} {next : prompt.kind.Answer → Script Unit}
      (waiting : engine.table.suspendedOf? player = some (id, session))
      (asks : session.phase = .suspended prompt next) (fits : prompt.accepts reply = true) :
      Handled engine (.respond player reply)
        (engine.resume id session (Script.answer prompt next reply))
  /-- A player who is gone loses all sessions. -/
  | left {player : PlayerId} :
      Handled engine (.disconnect player)
        (engine.cancelEach (engine.table.idsOf player) .disconnected)
  /-- A player who is elsewhere loses the open dialogue. -/
  | strayed {player : PlayerId} {map : MapId} {id : SessionId} {session : Session}
      (waiting : engine.table.suspendedOf? player = some (id, session))
      (away : session.trigger.map ≠ map) :
      Handled engine (.playerMoved player map) (engine.cancel id .mapChanged)
  | closed : Handled engine .shutdown engine.shutdown.1

/-- A command does one of these things. -/
theorem handled (engine : Engine) (command : Command) :
    Handled engine command (engine.handle command).1 := by
  cases ha : engine.accepting with
  | false =>
    rw [handle_of_not_accepting ha]
    exact .unchanged
  | true =>
    cases command with
    | trigger player trigger =>
      rw [handle_trigger ha]
      obtain ⟨script, view, hbound, hfree, hbar, hknown, he⟩ | ⟨id, session, htaken, hruns, -, he⟩ |
        ⟨result, -, he⟩ := engine.trigger_cases player trigger
      · rw [he]
        exact .started hbound hfree hbar hknown
      · rw [he]
        exact .queued htaken hruns
      · rw [he]
        exact .unchanged
    | respond player reply =>
      rw [handle_respond ha]
      obtain ⟨id, session, prompt, next, hwaiting, hasks, hfits, he⟩ | ⟨error, he⟩ :=
        engine.respond_cases player reply
      · rw [he]
        exact .resumed hwaiting hasks hfits
      · rw [he]
        exact .unchanged
    | disconnect player =>
      rw [handle_disconnect ha]
      exact .left
    | playerMoved player map =>
      rw [handle_playerMoved ha]
      obtain ⟨id, session, hwaiting, haway, he⟩ | he := engine.playerMoved_cases player map
      · rw [he]
        exact .strayed hwaiting haway
      · rw [he]
        exact .unchanged
    | sessions =>
      unfold handle
      rw [ha]
      exact .unchanged
    | shutdown =>
      rw [handle_shutdown ha]
      exact .closed

/-- Every command but a shutdown leaves both. -/
theorem alike_handle (engine : Engine) {command : Command} (h : command ≠ .shutdown) :
    Alike engine (engine.handle command).1 := by
  have hh := engine.handled command
  generalize (engine.handle command).1 = next at hh ⊢
  cases hh with
  | unchanged => exact .refl engine
  | started | queued | resumed => exact ⟨rfl, rfl⟩
  | left => exact engine.alike_cancelEach _ _
  | strayed => exact engine.alike_cancel _ _
  | closed => exact absurd rfl h

/-- No command touches the registry. -/
theorem registry_handle (engine : Engine) (command : Command) :
    (engine.handle command).1.registry = engine.registry := by
  by_cases h : command = .shutdown
  · subst h
    cases ha : engine.accepting with
    | false => rw [handle_of_not_accepting ha]
    | true =>
      rw [handle_shutdown ha]
      exact (engine.alike_cancelEach engine.table.ids .shutdown).registry
  · exact (engine.alike_handle h).registry

/-- A shutdown makes the engine refuse commands. -/
theorem accepting_handle_shutdown (engine : Engine) :
    (engine.handle .shutdown).1.accepting = false := by
  cases ha : engine.accepting with
  | false => rw [handle_of_not_accepting ha, ha]
  | true =>
    unfold handle
    rw [ha]
    rfl

theorem alike_release (engine : Engine) (slot : Slot) : Alike engine (engine.release slot).1 := by
  unfold release
  split
  · exact .refl engine
  · split
    · split
      · have hunpark : ∀ tasks, Alike engine { engine with tasks } := fun _ => ⟨rfl, rfl⟩
        exact (hunpark _).trans (alike_settle _)
      · exact .refl engine
    · exact .refl engine

end Engine
end Encounter
