import Encounter.Engine.Command
import Encounter.Proofs.World.Change
import Encounter.Proofs.Session.Lookup

/-!
# What the operations of the engine do

Each operation on sessions, tasks and notices does one thing or changes nothing, under the
conditions listed here. Proofs about the engine split along these cases and do not look into the
operations again.
-/

namespace Encounter

namespace Engine

@[simp] theorem table_publish (engine : Engine) (subject : Subject) (happening : Happening) :
    (engine.publish subject happening).table = engine.table := rfl

@[simp] theorem table_conclude (engine : Engine) (id : SessionId) (session : Session)
    (outcome : Outcome) :
    (engine.conclude id session outcome).table = engine.table.remove id session := rfl

@[simp] theorem table_start (engine : Engine) (id : SessionId) (view : PlayerView)
    (trigger : Trigger) (script : NamedScript) (queue : List QueuedTrigger) :
    (engine.start id view trigger script queue).table =
      engine.table.add id ⟨view.id, trigger, .running, queue⟩ := rfl

/-- Cutting off a session takes it out of the table. -/
theorem table_cancel {engine : Engine} {id : SessionId} {session : Session}
    (h : engine.table.find? id = some session) (reason : CancelReason) :
    (engine.cancel id reason).table = engine.table.remove id session := by
  unfold cancel
  rw [h]
  rfl

/-- Cutting off a session takes its task. -/
theorem tasks_cancel {engine : Engine} {id : SessionId} {session : Session}
    (h : engine.table.find? id = some session) (reason : CancelReason) :
    (engine.cancel id reason).tasks = engine.tasks.erase id := by
  unfold cancel
  rw [h]
  rfl

/-- Cutting off a session leaves the notices. -/
theorem notices_cancel (engine : Engine) (id : SessionId) (reason : CancelReason) :
    (engine.cancel id reason).notices = engine.notices := by
  unfold cancel
  split <;> rfl

/-- Cutting off a session publishes its end. -/
theorem log_cancel {engine : Engine} {id : SessionId} {session : Session}
    (h : engine.table.find? id = some session) (reason : CancelReason) :
    (engine.cancel id reason).log = engine.log ++
      [⟨⟨id, session.player, session.trigger⟩, .ended (.cancelled reason)⟩] := by
  unfold cancel
  rw [h]
  rfl

/-- Without such a session there is nothing to cut off. -/
theorem cancel_of_find?_eq_none {engine : Engine} {id : SessionId}
    (h : engine.table.find? id = none) (reason : CancelReason) :
    engine.cancel id reason = engine := by
  unfold cancel
  rw [h]

/-- After a session was cut off its number is free; other numbers keep their sessions. -/
theorem find?_cancel (engine : Engine) (id : SessionId) (reason : CancelReason)
    (other : SessionId) :
    (engine.cancel id reason).table.find? other =
      if other = id then none else engine.table.find? other := by
  cases h : engine.table.find? id with
  | none =>
    rw [cancel_of_find?_eq_none h]
    split
    · next he => rw [he, h]
    · rfl
  | some session => rw [table_cancel h, SessionTable.find?_remove]

/-- Cutting off several sessions frees their numbers. -/
theorem find?_cancelEach (engine : Engine) (ids : List SessionId) (reason : CancelReason)
    (other : SessionId) :
    (engine.cancelEach ids reason).table.find? other =
      if other ∈ ids then none else engine.table.find? other := by
  induction ids generalizing engine with
  | nil => rfl
  | cons id ids ih =>
    refine (ih (engine.cancel id reason)).trans ?_
    rw [find?_cancel]
    by_cases hid : other = id <;> by_cases hids : other ∈ ids <;> simp [hid, hids]

/-- A session that shows a prompt. -/
def await (engine : Engine) (id : SessionId) (session : Session) (prompt : Prompt)
    (next : prompt.kind.Answer → Script Unit) : Engine :=
  { engine with table := engine.table.setPhase id (.suspended prompt next) }.publish
    ⟨id, session.player, session.trigger⟩ (.prompted prompt)

/-- A session's prompt is shown if its player has no other dialogue open; else the session is cut
off. -/
theorem suspend_cases {engine : Engine} {id : SessionId} {session : Session}
    (h : engine.table.find? id = some session) (prompt : Prompt)
    (next : prompt.kind.Answer → Script Unit) :
    (engine.table.suspendedOf? session.player = none ∧
      engine.suspend id prompt next = engine.await id session prompt next) ∨
    ((engine.table.suspendedOf? session.player).isSome ∧
      engine.suspend id prompt next = engine.cancel id .conversationOpen) := by
  unfold suspend
  rw [h]
  dsimp only
  cases hs : engine.table.suspendedOf? session.player with
  | none => exact .inl ⟨rfl, rfl⟩
  | some entry => exact .inr ⟨rfl, rfl⟩

/-- Without such a session no prompt is shown. -/
theorem suspend_of_find?_eq_none {engine : Engine} {id : SessionId}
    (h : engine.table.find? id = none) (prompt : Prompt)
    (next : prompt.kind.Answer → Script Unit) : engine.suspend id prompt next = engine := by
  unfold suspend
  rw [h]

/-- The first queued trigger starts if its script and the player are there. -/
theorem startQueued_of_known {engine : Engine} {player : PlayerId} {first : QueuedTrigger}
    {script : NamedScript} {view : PlayerView}
    (hs : engine.registry.find? first.trigger.key = some script)
    (hv : engine.world.player? player = some view) (rest : List QueuedTrigger) :
    engine.startQueued player (first :: rest) =
      engine.start first.id view first.trigger script rest := by
  rw [startQueued, hs, hv]

/-- The first queued trigger starts if its script and the player are there; otherwise nothing is
started. -/
private theorem startQueued_cons (engine : Engine) (player : PlayerId) (first : QueuedTrigger)
    (rest : List QueuedTrigger) :
    (∃ script view, engine.registry.find? first.trigger.key = some script ∧
      engine.world.player? player = some view ∧
      engine.startQueued player (first :: rest) =
        engine.start first.id view first.trigger script rest) ∨
    (engine.registry.find? first.trigger.key = none ∨ engine.world.player? player = none) ∧
      engine.startQueued player (first :: rest) = engine := by
  cases hs : engine.registry.find? first.trigger.key with
  | none => exact .inr ⟨.inl rfl, by rw [startQueued, hs]⟩
  | some script =>
    cases hv : engine.world.player? player with
    | none => exact .inr ⟨.inr rfl, by rw [startQueued, hs, hv]⟩
    | some view => exact .inl ⟨script, view, rfl, rfl, startQueued_of_known hs hv rest⟩

/-- A session that ends by itself starts the first trigger behind it, unless there is none or its
script or player is gone. -/
theorem finish_cases {engine : Engine} {id : SessionId} {session : Session}
    (h : engine.table.find? id = some session) (result : Except ScriptError Unit) :
    (∃ first rest script view, session.queue = first :: rest ∧
      engine.registry.find? first.trigger.key = some script ∧
      engine.world.player? session.player = some view ∧
      engine.finish id result =
        (engine.conclude id session (.ofResult result)).start first.id view first.trigger script
          rest) ∨
    (session.queue = [] ∨ (∃ first ∈ session.queue, engine.registry.find? first.trigger.key = none) ∨
        engine.world.player? session.player = none) ∧
      engine.finish id result = engine.conclude id session (.ofResult result) := by
  unfold finish
  rw [h]
  dsimp only
  cases hq : session.queue with
  | nil => exact .inr ⟨.inl rfl, rfl⟩
  | cons first rest =>
    obtain ⟨script, view, hs, hv, he⟩ | ⟨hs | hv, he⟩ := startQueued_cons
      (engine.conclude id session (.ofResult result)) session.player first rest
    · exact .inl ⟨first, rest, script, view, rfl, hs, hv, he⟩
    · exact .inr ⟨.inr (.inl ⟨first, List.mem_cons_self, hs⟩), he⟩
    · exact .inr ⟨.inr (.inr hv), he⟩

/-- A session with nothing behind it just ends. -/
theorem finish_of_queue_nil {engine : Engine} {id : SessionId} {session : Session}
    (h : engine.table.find? id = some session) (hqueue : session.queue = [])
    (result : Except ScriptError Unit) :
    engine.finish id result = engine.conclude id session (.ofResult result) := by
  unfold finish
  rw [h]
  dsimp only
  rw [hqueue]
  rfl

/-- Without such a session there is nothing to finish. -/
theorem finish_of_find?_eq_none {engine : Engine} {id : SessionId}
    (h : engine.table.find? id = none) (result : Except ScriptError Unit) :
    engine.finish id result = engine := by
  unfold finish
  rw [h]

/-- Handling a notice sends none. -/
theorem notices_receive (engine : Engine) (notice : Notice) :
    (engine.receive notice).notices = engine.notices := by
  cases notice with
  | suspended id prompt next =>
    show (engine.suspend id prompt next).notices = engine.notices
    cases h : engine.table.find? id with
    | none => rw [suspend_of_find?_eq_none h]
    | some session =>
      obtain ⟨-, he⟩ | ⟨-, he⟩ := suspend_cases h prompt next
      · rw [he]
        rfl
      · rw [he, notices_cancel]
  | finished id result =>
    show (engine.finish id result).notices = engine.notices
    cases h : engine.table.find? id with
    | none => rw [finish_of_find?_eq_none h]
    | some session =>
      obtain ⟨first, rest, script, view, -, -, -, he⟩ | ⟨-, he⟩ := finish_cases h result
      · rw [he]
        rfl
      · rw [he]
        rfl

/-! ## Tasks -/

/-- The engine after a session's effects: the world is changed and the effects are published. -/
def afterEffects (engine : Engine) (id : SessionId) (origin : Origin) (effects : List Effect) :
    Engine :=
  { engine with
    world := effects.foldl (fun world effect => world.apply origin effect) engine.world
    log := engine.log ++
      effects.map fun effect => ⟨⟨id, origin.player, origin.trigger⟩, .effected effect⟩ }

/-- Carrying out effects one by one changes the world and the log only. -/
private theorem foldl_carryOut (engine : Engine) (id : SessionId) (origin : Origin)
    (effects : List Effect) :
    effects.foldl (fun engine effect => engine.carryOut id origin effect) engine =
      engine.afterEffects id origin effects := by
  induction effects generalizing engine with
  | nil =>
    unfold afterEffects
    rw [List.map_nil, List.append_nil]
    rfl
  | cons effect effects ih =>
    rw [List.foldl_cons, ih]
    unfold afterEffects carryOut publish
    rw [List.map_cons, List.foldl_cons, List.append_assoc]
    rfl

/-- A task whose script ends leaves a notice with the result. -/
theorem poll_of_ended {task : Task} {effects : List Effect} {result : Except ScriptError Unit}
    (h : task.script.advance = (effects, .ended result)) (engine : Engine) (id : SessionId) :
    engine.poll id task =
      { engine.afterEffects id task.origin effects with
        tasks := engine.tasks.erase id
        notices := engine.notices ++ [.finished id result] } := by
  unfold poll
  rw [h]
  dsimp only
  rw [foldl_carryOut]
  rfl

/-- A task whose script asks leaves a notice with the prompt. -/
theorem poll_of_asking {task : Task} {effects : List Effect} {prompt : Prompt}
    {next : prompt.kind.Answer → Script Unit}
    (h : task.script.advance = (effects, .asking prompt next)) (engine : Engine) (id : SessionId) :
    engine.poll id task =
      { engine.afterEffects id task.origin effects with
        tasks := engine.tasks.erase id
        notices := engine.notices ++ [.suspended id prompt next] } := by
  unfold poll
  rw [h]
  dsimp only
  rw [foldl_carryOut]
  rfl

/-- A task whose script parks stays, parked. -/
theorem poll_of_parked {task : Task} {effects : List Effect} {next : Script Unit}
    (h : task.script.advance = (effects, .parked next)) (engine : Engine) (id : SessionId) :
    engine.poll id task =
      { engine.afterEffects id task.origin effects with
        tasks := engine.tasks.insert id ⟨task.origin, next, true⟩ } := by
  unfold poll
  rw [h]
  dsimp only
  rw [foldl_carryOut]
  rfl

/-- Tasks do not touch the table. -/
@[simp] theorem table_poll (engine : Engine) (id : SessionId) (task : Task) :
    (engine.poll id task).table = engine.table := by
  cases h : task.script.advance with
  | mk effects stop =>
    cases stop with
    | ended result => rw [poll_of_ended h]; rfl
    | asking prompt next => rw [poll_of_asking h]; rfl
    | parked next => rw [poll_of_parked h]; rfl

/-- A task publishes its effects and nothing else. -/
theorem log_poll (engine : Engine) (id : SessionId) (task : Task) :
    (engine.poll id task).log = engine.log ++ task.script.advance.1.map fun effect =>
      ⟨⟨id, task.origin.player, task.origin.trigger⟩, .effected effect⟩ := by
  cases h : task.script.advance with
  | mk effects stop =>
    cases stop with
    | ended result => rw [poll_of_ended h]; rfl
    | asking prompt next => rw [poll_of_asking h]; rfl
    | parked next => rw [poll_of_parked h]; rfl

/-- A task changes the world by its effects and in no other way. -/
theorem world_poll (engine : Engine) (id : SessionId) (task : Task) :
    (engine.poll id task).world = task.script.advance.1.foldl
      (fun world effect => world.apply task.origin effect) engine.world := by
  cases h : task.script.advance with
  | mk effects stop =>
    cases stop with
    | ended result => rw [poll_of_ended h]; rfl
    | asking prompt next => rw [poll_of_asking h]; rfl
    | parked next => rw [poll_of_parked h]; rfl

/-- Lets a session go on with that script. -/
def resume (engine : Engine) (id : SessionId) (session : Session) (script : Script Unit) : Engine :=
  { engine with
    table := engine.table.setPhase id .running
    tasks := engine.tasks.insert id ⟨⟨session.player, session.trigger⟩, script, false⟩ }

/-- A session that goes on runs; the others stay as they are. -/
theorem find?_resume (engine : Engine) (id : SessionId) (session : Session) (script : Script Unit)
    (other : SessionId) :
    (engine.resume id session script).table.find? other =
      if other = id then (engine.table.find? id).map fun found => { found with phase := .running }
      else engine.table.find? other :=
  engine.table.find?_setPhase id other .running

/-- So a session that waited is not as it was. -/
theorem find?_resume_ne {engine : Engine} {id : SessionId} {session : Session}
    (hf : engine.table.find? id = some session) (hs : session.isSuspended = true)
    (script : Script Unit) :
    (engine.resume id session script).table.find? id ≠ some session := by
  rw [find?_resume, if_pos rfl, hf]
  intro hsame
  rw [← Option.some.inj hsame] at hs
  cases hs

/-- A trigger starts a session, waits behind one, or is not accepted and changes nothing. -/
theorem trigger_cases (engine : Engine) (player : PlayerId) (trigger : Trigger) :
    (∃ script view, engine.registry.find? trigger.key = some script ∧
      engine.table.inSlot? ⟨player, trigger.key⟩ = none ∧
      engine.barring? player trigger.kind = none ∧ engine.world.player? player = some view ∧
      engine.trigger player trigger =
        (engine.startNext view trigger script, .ok (.started engine.table.next))) ∨
    (∃ id session, engine.table.inSlot? ⟨player, trigger.key⟩ = some (id, session) ∧
      session.isSuspended = false ∧ (engine.registry.find? trigger.key).isSome ∧
      engine.trigger player trigger =
        (engine.enqueue id trigger, .ok (.queued engine.table.next))) ∨
    ∃ result, (∀ outcome, result = .ok outcome → outcome.session? = none) ∧
      engine.trigger player trigger = (engine, result) := by
  have refused : ∀ error, ∃ result : Except EngineError TriggerOutcome,
      (∀ outcome, result = .ok outcome → outcome.session? = none) ∧
        (engine, Except.error error) = (engine, result) :=
    fun error => ⟨.error error, by simp, rfl⟩
  unfold Engine.trigger
  cases hscript : engine.registry.find? trigger.key with
  | none =>
    refine .inr (.inr ⟨.ok .unbound, fun outcome h => ?_, rfl⟩)
    cases h
    rfl
  | some script =>
    cases hslot : engine.table.inSlot? ⟨player, trigger.key⟩ with
    | some entry =>
      obtain ⟨id, session⟩ := entry
      dsimp only
      split
      · exact .inr (.inr (refused _))
      · next hs =>
        split
        · exact .inr (.inr (refused _))
        · exact .inr (.inl ⟨id, session, rfl, Bool.eq_false_iff.2 hs, rfl, rfl⟩)
    | none =>
      cases hbar : engine.barring? player trigger.kind with
      | some dialogue => exact .inr (.inr (refused _))
      | none =>
        cases hview : engine.world.player? player with
        | none => exact .inr (.inr (refused _))
        | some view => exact .inl ⟨script, view, rfl, rfl, rfl, rfl, rfl⟩

/-- A trigger is queued while the session of its slot runs, if the world knows the player. -/
theorem trigger_of_running {engine : Engine} {player : PlayerId} {trigger : Trigger}
    {id : SessionId} {session : Session} {script : NamedScript}
    (hscript : engine.registry.find? trigger.key = some script)
    (htaken : engine.table.inSlot? ⟨player, trigger.key⟩ = some (id, session))
    (hs : session.isSuspended = false) :
    engine.trigger player trigger =
      if (engine.world.player? player).isSome then
        (engine.enqueue id trigger, .ok (.queued engine.table.next))
      else (engine, .error (.unknownPlayer player)) := by
  unfold Engine.trigger
  rw [hscript, htaken]
  cases engine.world.player? player <;> simp [hs]

/-- A reply that fits resumes the open dialogue of its player. One that does not leaves everything as
it was: the phase that is put back is the one that was taken out. -/
theorem respond_eq (engine : Engine) (player : PlayerId) (reply : Reply) :
    engine.respond player reply =
      match engine.table.suspendedOf? player with
      | none =>
        if (engine.table.idsOf player).isEmpty then (engine, .error (.noActiveSession player))
        else (engine, .error (.notAwaitingInput player))
      | some (id, session) =>
        match session.phase with
        | .running => (engine, .error (.notAwaitingInput player))
        | .suspended prompt next =>
          if prompt.accepts reply then
            (engine.resume id session (Script.answer prompt next reply), .ok ())
          else (engine, .error (.replyMismatch player prompt.kind reply)) := by
  unfold respond
  cases hs : engine.table.suspendedOf? player with
  | none => rfl
  | some entry =>
    obtain ⟨id, session⟩ := entry
    have hsame := SessionTable.setPhase_eq_self (SessionTable.of_suspendedOf?_eq_some hs).1
    dsimp only
    cases hp : session.phase with
    | running =>
      rw [hp] at hsame
      simp only [hsame]
    | suspended prompt next =>
      rw [hp] at hsame
      simp only [SessionTable.setPhase_setPhase, hsame]
      rfl

/-- A reply resumes the open dialogue of its player, or changes nothing. -/
theorem respond_cases (engine : Engine) (player : PlayerId) (reply : Reply) :
    (∃ id session prompt next, engine.table.suspendedOf? player = some (id, session) ∧
      session.phase = .suspended prompt next ∧ prompt.accepts reply = true ∧
      engine.respond player reply =
        (engine.resume id session (Script.answer prompt next reply), .ok ())) ∨
    ∃ error, engine.respond player reply = (engine, .error error) := by
  rw [respond_eq]
  cases hs : engine.table.suspendedOf? player with
  | none =>
    dsimp only
    split <;> exact .inr ⟨_, rfl⟩
  | some entry =>
    obtain ⟨id, session⟩ := entry
    dsimp only
    cases hp : session.phase with
    | running => exact .inr ⟨_, rfl⟩
    | suspended prompt next =>
      dsimp only
      split
      · next ha => exact .inl ⟨id, session, prompt, next, rfl, hp, ha, rfl⟩
      · exact .inr ⟨_, rfl⟩

/-- The prompt of the open dialogue decides about a reply. -/
theorem respond_of_waiting {engine : Engine} {player : PlayerId} {id : SessionId}
    {session : Session} {prompt : Prompt} {next : prompt.kind.Answer → Script Unit}
    (hs : engine.table.suspendedOf? player = some (id, session))
    (hp : session.phase = .suspended prompt next) (reply : Reply) :
    engine.respond player reply =
      if prompt.accepts reply then
        (engine.resume id session (Script.answer prompt next reply), .ok ())
      else (engine, .error (.replyMismatch player prompt.kind reply)) := by
  rw [respond_eq, hs]
  dsimp only
  rw [hp]

/-- A move cuts off the dialogue that was begun on another map, or changes nothing. -/
theorem playerMoved_cases (engine : Engine) (player : PlayerId) (map : MapId) :
    (∃ id session, engine.table.suspendedOf? player = some (id, session) ∧
      session.trigger.map ≠ map ∧
      engine.playerMoved player map = (engine.cancel id .mapChanged, true)) ∨
    engine.playerMoved player map = (engine, false) := by
  unfold playerMoved
  cases hs : engine.table.suspendedOf? player with
  | none => exact .inr rfl
  | some entry =>
    obtain ⟨id, session⟩ := entry
    dsimp only
    split
    · exact .inr rfl
    · next hm => exact .inl ⟨id, session, rfl, hm, rfl⟩

end Engine
end Encounter
