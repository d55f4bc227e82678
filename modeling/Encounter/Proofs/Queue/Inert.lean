import Encounter.Proofs.Chronicle.Play
import Encounter.Proofs.Queue.Runs
import Encounter.Proofs.Session.Waiting

/-!
# A trigger that waits changes nothing else

Queueing a trigger behind a session may be put off until after whatever the engine does next, as
long as that session does not end by itself and no other trigger is admitted. This holds of each
function of the engine, and so of runs of operations (`Engine.play_enqueue`).
-/

namespace Encounter
namespace Engine

variable (engine : Engine) (id : SessionId) (trigger : Trigger)

@[simp] theorem table_enqueue :
    (engine.enqueue id trigger).table = engine.table.queueUp id trigger := rfl

@[simp] theorem registry_enqueue : (engine.enqueue id trigger).registry = engine.registry := rfl

@[simp] theorem world_enqueue : (engine.enqueue id trigger).world = engine.world := rfl

@[simp] theorem tasks_enqueue : (engine.enqueue id trigger).tasks = engine.tasks := rfl

@[simp] theorem notices_enqueue : (engine.enqueue id trigger).notices = engine.notices := rfl

@[simp] theorem readyTask?_enqueue :
    (engine.enqueue id trigger).readyTask? = engine.readyTask? := rfl

/-- The event of an end tells nothing of the queue. -/
theorem conclude_enqueue (other : SessionId) (session : Session) (outcome : Outcome) :
    (engine.enqueue id trigger).conclude other (engine.table.extended id trigger other session)
        outcome =
      (engine.conclude other session outcome).enqueue id trigger := by
  unfold conclude
  rw [table_enqueue, SessionTable.remove_queueUp, SessionTable.player_extended,
    SessionTable.trigger_extended]
  rfl

/-- Cutting off a session drops what waits behind it, whenever it was queued. -/
private theorem cancel_enqueue (other : SessionId) (reason : CancelReason) :
    (engine.enqueue id trigger).cancel other reason =
      (engine.cancel other reason).enqueue id trigger := by
  unfold cancel
  rw [table_enqueue, SessionTable.find?_queueUp]
  cases engine.table.find? other with
  | none => rfl
  | some session =>
    dsimp only [Option.map_some]
    rw [conclude_enqueue]
    rfl

private theorem cancelEach_enqueue (ids : List SessionId) (reason : CancelReason) :
    (engine.enqueue id trigger).cancelEach ids reason =
      (engine.cancelEach ids reason).enqueue id trigger := by
  induction ids generalizing engine with
  | nil => rfl
  | cons other ids ih =>
    show ((engine.enqueue id trigger).cancel other reason).cancelEach ids reason = _
    rw [cancel_enqueue, ih]
    rfl

/-- Another session may start. -/
private theorem start_enqueue {other : SessionId} (h : other ≠ id) (view : PlayerView)
    (touched : Trigger) (script : NamedScript) (queue : List QueuedTrigger) :
    (engine.enqueue id trigger).start other view touched script queue =
      (engine.start other view touched script queue).enqueue id trigger := by
  have hadd := engine.table.add_queueUp id trigger ⟨view.id, touched, .running, queue⟩ h
  unfold start
  exact congrArg (fun table => { engine.start other view touched script queue with table }) hadd

private theorem startQueued_enqueue (player : PlayerId) {queue : List QueuedTrigger}
    (h : ∀ queued ∈ queue, queued.id ≠ id) :
    (engine.enqueue id trigger).startQueued player queue =
      (engine.startQueued player queue).enqueue id trigger := by
  cases queue with
  | nil => rfl
  | cons first rest =>
    have hstart := engine.start_enqueue id trigger (h first List.mem_cons_self)
    rw [startQueued, startQueued, registry_enqueue, world_enqueue]
    cases engine.registry.find? first.trigger.key with
    | none => rfl
    | some script =>
      cases engine.world.player? player with
      | none => rfl
      | some view => exact hstart view first.trigger script rest

private theorem await_enqueue (other : SessionId) (session : Session) (prompt : Prompt)
    (next : prompt.kind.Answer → Script Unit) :
    (engine.enqueue id trigger).await other (engine.table.extended id trigger other session) prompt
        next =
      (engine.await other session prompt next).enqueue id trigger := by
  unfold await
  rw [table_enqueue, SessionTable.setPhase_queueUp, SessionTable.player_extended,
    SessionTable.trigger_extended]
  rfl

theorem resume_enqueue (other : SessionId) (session : Session) (script : Script Unit) :
    (engine.enqueue id trigger).resume other (engine.table.extended id trigger other session)
        script =
      (engine.resume other session script).enqueue id trigger := by
  unfold resume
  rw [table_enqueue, SessionTable.setPhase_queueUp, SessionTable.player_extended,
    SessionTable.trigger_extended]
  rfl

private theorem suspend_enqueue (other : SessionId) (prompt : Prompt)
    (next : prompt.kind.Answer → Script Unit) :
    (engine.enqueue id trigger).suspend other prompt next =
      (engine.suspend other prompt next).enqueue id trigger := by
  unfold suspend
  rw [table_enqueue, SessionTable.find?_queueUp]
  cases engine.table.find? other with
  | none => rfl
  | some session =>
    dsimp only [Option.map_some]
    rw [SessionTable.player_extended, SessionTable.suspendedOf?_queueUp]
    cases engine.table.suspendedOf? session.player with
    | none =>
      have hawait := engine.await_enqueue id trigger other session prompt next
      rw [await, SessionTable.player_extended] at hawait
      exact hawait
    | some entry => exact engine.cancel_enqueue id trigger other .conversationOpen

/-- Another session may end by itself; what starts in its place is not the session that the trigger
waits behind, as that one had its turn before. -/
private theorem finish_enqueue {engine : Engine} {id : SessionId} (hcalled : engine.table.Called id)
    (trigger : Trigger) {other : SessionId} (h : other = id → engine.table.find? id = none)
    (result : Except ScriptError Unit) :
    (engine.enqueue id trigger).finish other result =
      (engine.finish other result).enqueue id trigger := by
  unfold finish
  rw [table_enqueue, SessionTable.find?_queueUp]
  cases hf : engine.table.find? other with
  | none => rfl
  | some session =>
    have hne : other ≠ id := by
      intro he
      rw [he, h he] at hf
      cases hf
    dsimp only [Option.map_some]
    rw [conclude_enqueue, SessionTable.player_extended, SessionTable.extended_of_ne _ _ _ _ hne]
    apply startQueued_enqueue
    exact hcalled.notQueued other session hf

variable {engine id}

/-- A notice has the same effect beside the trigger that waits, unless it ends the session ahead. -/
private theorem receive_enqueue (hcalled : engine.table.Called id) (trigger : Trigger)
    {notice : Notice} (h : ∀ result, notice = .finished id result → engine.table.find? id = none) :
    (engine.enqueue id trigger).receive notice = (engine.receive notice).enqueue id trigger := by
  cases notice with
  | suspended other prompt next => exact engine.suspend_enqueue id trigger other prompt next
  | finished other result =>
    apply finish_enqueue hcalled
    rintro rfl
    exact h result rfl

private theorem poll_enqueue (trigger : Trigger) (other : SessionId) (task : Task) :
    (engine.enqueue id trigger).poll other task = (engine.poll other task).enqueue id trigger := by
  cases h : task.script.advance with
  | mk effects stop =>
    cases stop with
    | ended result => simp only [poll_of_ended h]; rfl
    | asking prompt next => simp only [poll_of_asking h]; rfl
    | parked next => simp only [poll_of_parked h]; rfl

/-- A step does the same beside the trigger that waits, unless it ends the session ahead. -/
private theorem step?_enqueue (hcalled : engine.table.Called id) (trigger : Trigger)
    (h : ∀ result rest, engine.notices = .finished id result :: rest →
      engine.table.find? id = none) :
    (engine.enqueue id trigger).step? =
      engine.step?.map fun next => next.enqueue id trigger := by
  unfold step?
  rw [notices_enqueue, readyTask?_enqueue]
  cases hn : engine.notices with
  | nil =>
    simp only [poll_enqueue, Option.map_map]
    rfl
  | cons notice rest =>
    have hreceive := @receive_enqueue { engine with notices := rest } id hcalled trigger notice
    apply congrArg some
    apply hreceive
    rintro result rfl
    exact h result rest hn

/-- If the session ahead is still there when the engine has come to rest, the trigger may as well be
queued then. -/
private theorem settle_enqueue (hcalled : engine.table.Called id) (trigger : Trigger)
    (hactive : (engine.settle.table.find? id).isSome) :
    (engine.enqueue id trigger).settle = engine.settle.enqueue id trigger := by
  induction engine using step_induction with
  | hquiet engine hs => rw [settle_of_quiet hs, settle_enqueue_of_quiet hs]
  | hstep engine next hs ih =>
    have hsettle : engine.settle = next.settle := settle_of_step? hs
    obtain ⟨events, hm⟩ := proceeds_of_step? hs
    have hnext : next.table.Called id := hm.changes.called hcalled
    rw [hsettle] at hactive ⊢
    have hstep : (engine.enqueue id trigger).step? = some (next.enqueue id trigger) := by
      rw [step?_enqueue hcalled, hs, Option.map_some]
      intro result rest hnotices
      -- A session that ended in this step would be missing at rest.
      have hgone : next.table.find? id = none := by
        rw [step?, hnotices] at hs
        cases hs
        have hfinish := @find?_finish { engine with notices := rest } id hcalled id result
        exact hfinish.trans (if_pos rfl)
      obtain ⟨others, hrest⟩ := next.proceeds_settle
      rw [hrest.changes.find?_eq_none hnext hgone] at hactive
      cases hactive
    rw [settle_of_step? hstep]
    exact ih hnext hactive

/-! ## Commands -/

variable (engine id) (trigger : Trigger)

/-- The dialogue that bars a player from something bars them as before. -/
private theorem barring?_enqueue (player : PlayerId) (kind : TriggerKind) :
    ((engine.enqueue id trigger).barring? player kind).map Session.trigger =
      (engine.barring? player kind).map Session.trigger := by
  cases kind with
  | reactor => rfl
  | npc =>
    unfold barring?
    rw [table_enqueue, SessionTable.suspendedOf?_queueUp]
    cases engine.table.suspendedOf? player with
    | none => rfl
    | some entry => exact congrArg some (SessionTable.trigger_extended _ _ _ _ _)

/-- A trigger that is not accepted is refused beside the one that waits as well. -/
private theorem trigger_enqueue {player : PlayerId} {touched : Trigger}
    (h : ∀ outcome, (engine.trigger player touched).2 = .ok outcome → outcome.session? = none) :
    (engine.enqueue id trigger).trigger player touched =
      ((engine.trigger player touched).1.enqueue id trigger,
        (engine.trigger player touched).2) := by
  unfold Engine.trigger at h ⊢
  rw [registry_enqueue, world_enqueue, table_enqueue, SessionTable.inSlot?_queueUp]
  cases hs : engine.registry.find? touched.key with
  | none => rfl
  | some script =>
    rw [hs] at h
    cases hslot : engine.table.inSlot? ⟨player, touched.key⟩ with
    | some entry =>
      rw [hslot] at h
      dsimp only [Option.map_some] at h ⊢
      rw [SessionTable.isSuspended_extended, SessionTable.trigger_extended]
      split
      · rfl
      · next hruns =>
        split
        · rfl
        · next hknown =>
          rw [if_neg hruns, if_neg hknown] at h
          cases h _ rfl
    | none =>
      have hbar := engine.barring?_enqueue id trigger player touched.kind
      rw [hslot] at h
      cases hb : engine.barring? player touched.kind with
      | some dialogue =>
        rw [hb] at hbar
        obtain ⟨other, ho, htrigger⟩ := Option.map_eq_some_iff.1 hbar
        dsimp only [Option.map_none]
        rw [ho, ← htrigger]
      | none =>
        rw [hb] at h hbar
        dsimp only [Option.map_none]
        rw [Option.map_eq_none_iff.1 hbar]
        cases hv : engine.world.player? player with
        | none => rfl
        | some view =>
          rw [hv] at h
          cases h _ rfl

private theorem respond_enqueue (player : PlayerId) (reply : Reply) :
    (engine.enqueue id trigger).respond player reply =
      ((engine.respond player reply).1.enqueue id trigger, (engine.respond player reply).2) := by
  rw [respond_eq, respond_eq, table_enqueue, SessionTable.suspendedOf?_queueUp, SessionTable.idsOf_queueUp]
  cases engine.table.suspendedOf? player with
  | none =>
    dsimp only [Option.map_none]
    split <;> rfl
  | some entry =>
    obtain ⟨other, session⟩ := entry
    dsimp only [Option.map_some]
    rw [SessionTable.phase_extended]
    cases session.phase with
    | running => rfl
    | suspended prompt next =>
      dsimp only
      rw [resume_enqueue]
      split <;> rfl

private theorem playerMoved_enqueue (player : PlayerId) (map : MapId) :
    (engine.enqueue id trigger).playerMoved player map =
      ((engine.playerMoved player map).1.enqueue id trigger,
        (engine.playerMoved player map).2) := by
  unfold playerMoved
  rw [table_enqueue, SessionTable.suspendedOf?_queueUp]
  cases engine.table.suspendedOf? player with
  | none => rfl
  | some entry =>
    dsimp only [Option.map_some]
    rw [SessionTable.trigger_extended, cancel_enqueue]
    split <;> rfl

private theorem disconnect_enqueue (player : PlayerId) :
    (engine.enqueue id trigger).disconnect player =
      ((engine.disconnect player).1.enqueue id trigger, (engine.disconnect player).2) := by
  unfold disconnect
  dsimp only
  rw [table_enqueue, SessionTable.idsOf_queueUp, cancelEach_enqueue]

private theorem shutdown_enqueue :
    (engine.enqueue id trigger).shutdown =
      (engine.shutdown.1.enqueue id trigger, engine.shutdown.2) := by
  unfold shutdown
  dsimp only
  rw [table_enqueue, SessionTable.ids_queueUp, cancelEach_enqueue]
  rfl

/-- A command that admits no trigger has the same effect and answer beside the one that waits. -/
theorem handle_enqueue {command : Command} (h : engine.admits (.command command) = []) :
    (engine.enqueue id trigger).handle command =
      ((engine.handle command).1.enqueue id trigger, (engine.handle command).2) := by
  have hsame : (engine.enqueue id trigger).accepting = engine.accepting := rfl
  cases ha : engine.accepting with
  | false => rw [handle_of_not_accepting ha, handle_of_not_accepting (hsame.trans ha)]
  | true =>
    rw [ha] at hsame
    cases command with
    | trigger player touched =>
      rw [handle_trigger ha, handle_trigger hsame, trigger_enqueue]
      intro outcome ho
      rw [admits, handle_trigger ha, ho] at h
      simpa [Except.map] using h
    | respond player reply => rw [handle_respond ha, handle_respond hsame, respond_enqueue]
    | disconnect player => rw [handle_disconnect ha, handle_disconnect hsame, disconnect_enqueue]
    | playerMoved player map =>
      rw [handle_playerMoved ha, handle_playerMoved hsame, playerMoved_enqueue]
    | sessions =>
      unfold handle
      rw [hsame, ha, table_enqueue, SessionTable.infos_queueUp]
      rfl
    | shutdown => rw [handle_shutdown ha, handle_shutdown hsame, shutdown_enqueue]

/-! ## Runs of operations -/

variable {engine id}

/-- Releasing a slot has the same effect beside the trigger that waits. -/
private theorem release_enqueue (hcalled : engine.table.Called id) (slot : Slot)
    (hactive : ((engine.release slot).1.table.find? id).isSome) :
    ((engine.enqueue id trigger).release slot).1 = (engine.release slot).1.enqueue id trigger := by
  unfold release at hactive ⊢
  rw [table_enqueue, SessionTable.inSlot?_queueUp, tasks_enqueue]
  cases hslot : engine.table.inSlot? slot with
  | none => rfl
  | some entry =>
    rw [hslot] at hactive
    dsimp only [Option.map_some] at hactive ⊢
    cases ht : engine.tasks.find? entry.1 with
    | none => rfl
    | some task =>
      rw [ht] at hactive
      dsimp only at hactive ⊢
      split
      · next hparked =>
        rw [if_pos hparked] at hactive
        let released : Engine :=
          { engine with tasks := engine.tasks.insert entry.1 { task with parked := false } }
        exact @settle_enqueue released id hcalled trigger hactive
      · rfl

/-- An operation that admits no trigger and leaves the session ahead has the same effect beside the
trigger that waits. -/
private theorem operate_enqueue (hcalled : engine.table.Called id) {operation : Operation}
    (hadmits : engine.admissions operation.requests = [])
    (hactive : ((engine.operate operation).table.find? id).isSome) :
    (engine.enqueue id trigger).operate operation =
      (engine.operate operation).enqueue id trigger := by
  cases operation with
  | command command =>
    have hnone : engine.admits (.command command) = [] := (List.append_eq_nil_iff.1 hadmits).1
    have hhandled : (engine.handle command).1.table.Called id :=
      (engine.changes_act (.command command)).called hcalled
    show ((engine.enqueue id trigger).handle command).1.settle = _
    rw [handle_enqueue _ _ _ hnone]
    exact settle_enqueue hhandled trigger hactive
  | release slot => exact release_enqueue trigger hcalled slot hactive
  | edit change => rfl

/-- So it is for a run of such operations: the trigger may as well be queued after the run. -/
theorem play_enqueue (hcalled : engine.table.Called id) {operations : List Operation}
    (hadmitted : engine.admittedBy operations = [])
    (hactive : ((engine.play operations).table.find? id).isSome) :
    (engine.enqueue id trigger).play operations =
      (engine.play operations).enqueue id trigger := by
  induction operations generalizing engine with
  | nil => rfl
  | cons operation operations ih =>
    obtain ⟨hfirst, hrest⟩ := List.append_eq_nil_iff.1 hadmitted
    have hnext : (engine.operate operation).table.Called id :=
      (engine.moves_operate operation).changes.called hcalled
    have hlater := ((engine.operate operation).moves_play operations).changes
    have hstays : ((engine.operate operation).table.find? id).isSome := by
      obtain ⟨session, hf⟩ := Option.isSome_iff_exists.1 hactive
      obtain ⟨before, hbefore, -⟩ := hlater.persists hnext session hf
      exact Option.isSome_iff_exists.2 ⟨before, hbefore⟩
    show ((engine.enqueue id trigger).operate operation).play operations = _
    rw [operate_enqueue trigger hcalled hfirst hstays]
    exact ih hnext hrest hactive

end Engine
end Encounter
