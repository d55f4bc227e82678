import Encounter.Proofs.Chronicle.Basic
import Encounter.Proofs.Engine.Standing
import Encounter.Proofs.Session.Change

/-!
# The moves of the engine

Between two states of the engine lie moves, each of them one act with the notes it leaves. They take
the conditions that the engine checks before it acts and leave out how it comes to act, so an
invariant of all runs needs one case per move (`Engine.moves_play`).
-/

namespace Encounter
namespace Engine

/-- One act of the engine, with its notes. -/
inductive Move : Engine → List Entry → Engine → Prop where
  /-- A session starts in a free slot. -/
  | opened {engine : Engine} {view : PlayerView} {trigger : Trigger} {script : NamedScript}
      (free : engine.table.inSlot? ⟨view.id, trigger.key⟩ = none) :
      Move engine [.event ⟨⟨engine.table.next, view.id, trigger⟩, .started⟩]
        (engine.startNext view trigger script)
  /-- A trigger waits behind the session of its slot. -/
  | queued {engine : Engine} {player : PlayerId} {trigger : Trigger} {id : SessionId}
      {session : Session}
      (taken : engine.table.inSlot? ⟨player, trigger.key⟩ = some (id, session)) :
      Move engine [] (engine.enqueue id trigger)
  /-- A reply lets a session go on. -/
  | resumed {engine : Engine} {id : SessionId} {session : Session} {script : Script Unit}
      (found : engine.table.find? id = some session) (waiting : session.isSuspended = true) :
      Move engine [.replied id] (engine.resume id session script)
  /-- A session is cut off together with its task. -/
  | cancelled {engine : Engine} {id : SessionId} {session : Session} {reason : CancelReason}
      (found : engine.table.find? id = some session) :
      Move engine [.event ⟨⟨id, session.player, session.trigger⟩, .ended (.cancelled reason)⟩]
        (engine.cancel id reason)
  /-- The oldest notice is dropped. -/
  | dropped {engine : Engine} {notice : Notice} {rest : List Notice}
      (notices : engine.notices = notice :: rest) : Move engine [] { engine with notices := rest }
  /-- A session shows the prompt of the oldest notice. -/
  | awaited {engine : Engine} {id : SessionId} {session : Session} {prompt : Prompt}
      {next : prompt.kind.Answer → Script Unit} {rest : List Notice}
      (notices : engine.notices = .suspended id prompt next :: rest)
      (found : engine.table.find? id = some session)
      (alone : engine.table.suspendedOf? session.player = none) :
      Move engine [.event ⟨⟨id, session.player, session.trigger⟩, .prompted prompt⟩]
        ({ engine with notices := rest }.await id session prompt next)
  /-- A session ends with the result of the oldest notice. -/
  | finished {engine : Engine} {id : SessionId} {session : Session}
      {result : Except ScriptError Unit} {rest : List Notice}
      (notices : engine.notices = .finished id result :: rest)
      (found : engine.table.find? id = some session) :
      Move engine [.event ⟨⟨id, session.player, session.trigger⟩, .ended (.ofResult result)⟩]
        ({ engine with notices := rest }.conclude id session (.ofResult result))
  /-- A session ends likewise, and the first trigger behind it starts. -/
  | handedOver {engine : Engine} {id : SessionId} {session : Session}
      {result : Except ScriptError Unit} {rest : List Notice} {first : QueuedTrigger}
      {others : List QueuedTrigger} {view : PlayerView} {script : NamedScript}
      (notices : engine.notices = .finished id result :: rest)
      (found : engine.table.find? id = some session) (queue : session.queue = first :: others)
      (player : view.id = session.player) :
      Move engine
        [.event ⟨⟨id, session.player, session.trigger⟩, .ended (.ofResult result)⟩,
          .event ⟨⟨first.id, view.id, first.trigger⟩, .started⟩]
        (({ engine with notices := rest }.conclude id session (.ofResult result)).start first.id
          view first.trigger script others)
  /-- A task runs to its next stop. -/
  | polled {engine : Engine} {id : SessionId} {task : Task}
      (found : engine.tasks.find? id = some task) :
      Move engine
        ((task.script.advance.1.map fun effect =>
          (⟨⟨id, task.origin.player, task.origin.trigger⟩, .effected effect⟩ : Event)).map
            Entry.event)
        (engine.poll id task)
  /-- A parked task may go on. -/
  | unparked {engine : Engine} {id : SessionId} {task : Task}
      (found : engine.tasks.find? id = some task) :
      Move engine [] { engine with tasks := engine.tasks.insert id { task with parked := false } }
  /-- The world changes from outside. -/
  | edited {engine : Engine} (change : World → World) : Move engine [] (engine.editWorld change)
  /-- No further command is accepted. -/
  | closed {engine : Engine} : Move engine [] { engine with accepting := false }

/-- Moves one after the other, with all their notes. -/
inductive Moves : Engine → List Entry → Engine → Prop where
  | refl (engine : Engine) : Moves engine [] engine
  | head {engine middle next : Engine} {notes others : List Entry}
      (first : Move engine notes middle) (rest : Moves middle others next) :
      Moves engine (notes ++ others) next

/-- One run of moves after another. -/
theorem Moves.trans {engine middle next : Engine} {notes others : List Entry}
    (h : Moves engine notes middle) (h' : Moves middle others next) :
    Moves engine (notes ++ others) next := by
  induction h with
  | refl => exact h'
  | head first _ ih =>
    rw [List.append_assoc]
    exact .head first (ih h')

theorem Move.moves {engine next : Engine} {notes : List Entry} (h : Move engine notes next) :
    Moves engine notes next := by
  have hm := Moves.head h (.refl next)
  rw [List.append_nil] at hm
  exact hm

/-- Events that were noted down are all read back. -/
private theorem filterMap_event? (events : List Event) :
    (events.map Entry.event).filterMap Entry.event? = events := by
  rw [List.filterMap_map]
  exact List.filterMap_some

/-- The note of a reply is no event. -/
private theorem filterMap_accepted (engine : Engine) (operation : Operation) :
    (engine.accepted operation).filterMap Entry.event? = [] := by
  unfold accepted
  split
  · split <;> rfl
  · rfl

/-- A move appends its events to the log. -/
theorem Move.log {engine next : Engine} {notes : List Entry} (h : Move engine notes next) :
    next.log = engine.log ++ notes.filterMap Entry.event? := by
  cases h with
  | opened free => rfl
  | queued taken => exact (List.append_nil _).symm
  | resumed found waiting => exact (List.append_nil _).symm
  | cancelled found => exact log_cancel found _
  | dropped notices => exact (List.append_nil _).symm
  | awaited notices found alone => rfl
  | finished notices found => rfl
  | handedOver notices found queue player => exact List.append_assoc _ _ _
  | @polled id task found =>
    rw [log_poll, filterMap_event?]
  | unparked found => exact (List.append_nil _).symm
  | edited change => exact (List.append_nil _).symm
  | closed => exact (List.append_nil _).symm

/-- Moves append their events to the log. -/
theorem Moves.log {engine next : Engine} {notes : List Entry} (h : Moves engine notes next) :
    next.log = engine.log ++ notes.filterMap Entry.event? := by
  induction h with
  | refl engine => exact (List.append_nil _).symm
  | head first _ ih => rw [ih, first.log, List.filterMap_append, List.append_assoc]

/-- A move changes the table in one of its ways, or not at all. -/
theorem Move.changes {engine next : Engine} {notes : List Entry} (h : Move engine notes next) :
    SessionTable.Changes engine.table next.table := by
  cases h with
  | opened free => exact .single (.opened free)
  | queued taken => exact .single (.queued taken)
  | resumed found waiting => exact .single .resumed
  | cancelled found =>
    rw [table_cancel found]
    exact .single (.removed found)
  | dropped notices => exact .refl
  | awaited notices found alone => exact .single (.suspended found alone)
  | finished notices found => exact .single (.removed found)
  | handedOver notices found queue player =>
    rw [table_start, table_conclude, player]
    exact .single (.handedOver found queue)
  | polled found =>
    rw [table_poll]
  | unparked found => exact .refl
  | edited change => exact .refl
  | closed => exact .refl

/-- Moves change the table in its ways. -/
theorem Moves.changes {engine next : Engine} {notes : List Entry} (h : Moves engine notes next) :
    SessionTable.Changes engine.table next.table := by
  induction h with
  | refl engine => exact .refl
  | head first _ ih => exact first.changes.trans ih

/-- One state leads to another by moves without replies. -/
def Proceeds (engine next : Engine) : Prop :=
  ∃ events : List Event, Moves engine (events.map Entry.event) next

theorem Proceeds.refl (engine : Engine) : Proceeds engine engine := ⟨[], .refl engine⟩

theorem Proceeds.trans {engine middle next : Engine} (h : Proceeds engine middle)
    (h' : Proceeds middle next) : Proceeds engine next := by
  obtain ⟨events, hm⟩ := h
  obtain ⟨others, hm'⟩ := h'
  refine ⟨events ++ others, ?_⟩
  rw [List.map_append]
  exact hm.trans hm'

/-- A move that leaves no note. -/
private theorem Move.proceeds_silent {engine next : Engine} (h : Move engine [] next) :
    Proceeds engine next := ⟨[], h.moves⟩

/-- A move that leaves one event. -/
private theorem Move.proceeds {engine next : Engine} {event : Event}
    (h : Move engine [.event event] next) :
    Proceeds engine next := ⟨[event], h.moves⟩

private theorem proceeds_cancel (engine : Engine) (id : SessionId) (reason : CancelReason) :
    Proceeds engine (engine.cancel id reason) := by
  cases h : engine.table.find? id with
  | none =>
    rw [cancel_of_find?_eq_none h]
    exact .refl engine
  | some session => exact (Move.cancelled h).proceeds

theorem proceeds_cancelEach (engine : Engine) (ids : List SessionId) (reason : CancelReason) :
    Proceeds engine (engine.cancelEach ids reason) := by
  induction ids generalizing engine with
  | nil => exact .refl engine
  | cons id ids ih => exact (engine.proceeds_cancel id reason).trans (ih _)

/-- The oldest notice opens a dialogue, cuts its session off, or is dropped. -/
private theorem proceeds_suspend {engine popped : Engine} {id : SessionId} {prompt : Prompt}
    {next : prompt.kind.Answer → Script Unit} {rest : List Notice}
    (h : engine.notices = .suspended id prompt next :: rest)
    (hp : popped = { engine with notices := rest }) :
    Proceeds engine (popped.suspend id prompt next) := by
  have hdrop : Proceeds engine popped := by
    rw [hp]
    exact (Move.dropped h).proceeds_silent
  cases hf : popped.table.find? id with
  | none =>
    rw [suspend_of_find?_eq_none hf]
    exact hdrop
  | some session =>
    obtain ⟨halone, he⟩ | ⟨-, he⟩ := suspend_cases hf prompt next
    · subst hp
      rw [he]
      exact (Move.awaited h hf halone).proceeds
    · rw [he]
      exact hdrop.trans (popped.proceeds_cancel id .conversationOpen)

/-- The oldest notice ends its session, which may hand its slot on, or is dropped. -/
private theorem proceeds_finish {engine popped : Engine} {id : SessionId}
    {result : Except ScriptError Unit} {rest : List Notice}
    (h : engine.notices = .finished id result :: rest)
    (hp : popped = { engine with notices := rest }) :
    Proceeds engine (popped.finish id result) := by
  cases hf : popped.table.find? id with
  | none =>
    rw [finish_of_find?_eq_none hf, hp]
    exact (Move.dropped h).proceeds_silent
  | some session =>
    obtain ⟨first, others, script, view, hq, -, hview, he⟩ | ⟨-, he⟩ := finish_cases hf result
    · subst hp
      rw [he]
      exact ⟨[_, _], (Move.handedOver h hf hq (World.id_of_player?_eq_some hview)).moves⟩
    · subst hp
      rw [he]
      exact (Move.finished h hf).proceeds

/-- Whichever notice is the oldest, handling it is made of moves. -/
theorem proceeds_receive {engine popped : Engine} {notice : Notice} {rest : List Notice}
    (h : engine.notices = notice :: rest) (hp : popped = { engine with notices := rest }) :
    Proceeds engine (popped.receive notice) := by
  cases notice with
  | suspended id prompt next => exact proceeds_suspend h hp
  | finished id result => exact proceeds_finish h hp

theorem proceeds_of_step? {engine next : Engine} (h : engine.step? = some next) :
    Proceeds engine next := by
  obtain ⟨notice, rest, hn, rfl⟩ | ⟨id, task, -, hr, rfl⟩ := step?_cases h
  · exact proceeds_receive hn rfl
  · exact ⟨_, (Move.polled (of_readyTask?_eq_some hr).1).moves⟩

/-- Coming to rest is made of moves. -/
theorem proceeds_settle (engine : Engine) : Proceeds engine engine.settle :=
  settle_induction (.refl engine) fun _ _ h hs => h.trans (proceeds_of_step? hs)

private theorem proceeds_release (engine : Engine) (slot : Slot) :
    Proceeds engine (engine.release slot).1 := by
  unfold release
  cases engine.table.inSlot? slot with
  | none => exact .refl engine
  | some entry =>
    dsimp only
    cases ht : engine.tasks.find? entry.1 with
    | none => exact .refl engine
    | some task =>
      dsimp only
      split
      · exact (Move.unparked ht).proceeds_silent.trans (proceeds_settle _)
      · exact .refl engine

/-- A command that is no reply leads to events only. -/
private theorem proceeds_handle (engine : Engine) {command : Command}
    (h : ∀ player reply, command ≠ .respond player reply) :
    Proceeds engine (engine.handle command).1 := by
  have hh := engine.handled command
  generalize (engine.handle command).1 = next at hh ⊢
  cases hh with
  | unchanged => exact .refl engine
  | started bound free unbarred known =>
    rw [← World.id_of_player?_eq_some known] at free
    exact (Move.opened free).proceeds
  | queued taken runs => exact (Move.queued taken).proceeds_silent
  | resumed => exact absurd rfl (h _ _)
  | left => exact engine.proceeds_cancelEach _ _
  | strayed => exact engine.proceeds_cancel _ _
  | closed =>
    exact (engine.proceeds_cancelEach engine.table.ids .shutdown).trans Move.closed.proceeds_silent

/-- An accepted reply is noted down for the open dialogue. -/
private theorem accepted_of_ok {engine : Engine} {player : PlayerId} {reply : Reply}
    {answer : Answer} {id : SessionId} {session : Session}
    (h : (engine.handle (.respond player reply)).2 = .ok answer)
    (hs : engine.table.suspendedOf? player = some (id, session)) :
    engine.accepted (.command (.respond player reply)) = [.replied id] := by
  simp only [accepted, perform, h, hs]

/-- A refused reply is not noted down. -/
private theorem accepted_of_error {engine : Engine} {player : PlayerId} {reply : Reply}
    {error : EngineError} (h : (engine.handle (.respond player reply)).2 = .error error) :
    engine.accepted (.command (.respond player reply)) = [] := by
  simp only [accepted, perform, h]

/-- A reply leaves its note if it is accepted; a refused one changes nothing. -/
private theorem moves_respond (engine : Engine) (player : PlayerId) (reply : Reply) :
    Moves engine (engine.accepted (.command (.respond player reply)))
      (engine.handle (.respond player reply)).1 := by
  cases ha : engine.accepting with
  | false =>
    have hclosed := handle_of_not_accepting ha (.respond player reply)
    have herror : (engine.handle (.respond player reply)).2 = .error .closed := by rw [hclosed]
    rw [accepted_of_error herror, hclosed]
    exact .refl engine
  | true =>
    have hhandle := handle_respond ha player reply
    obtain ⟨id, session, prompt, next, hs, -, -, he⟩ | ⟨error, he⟩ :=
      engine.respond_cases player reply
    · obtain ⟨hf, -, hw⟩ := SessionTable.of_suspendedOf?_eq_some hs
      have hok : (engine.handle (.respond player reply)).2 = .ok .resumed := by
        rw [hhandle, he]
        rfl
      rw [accepted_of_ok hok hs, hhandle, he]
      exact (Move.resumed hf hw).moves
    · have herror : (engine.handle (.respond player reply)).2 = .error error := by
        rw [hhandle, he]
        rfl
      rw [accepted_of_error herror, hhandle, he]
      exact .refl engine

/-- A command leads to the note of its accepted reply and then to events. -/
theorem moves_handle (engine : Engine) (command : Command) :
    ∃ events : List Event,
      Moves engine (engine.accepted (.command command) ++ events.map Entry.event)
        (engine.handle command).1 := by
  cases command with
  | respond player reply =>
    refine ⟨[], ?_⟩
    rw [List.map_nil, List.append_nil]
    exact engine.moves_respond player reply
  | trigger | disconnect | playerMoved | sessions | shutdown =>
    exact engine.proceeds_handle (by simp)

/-- An operation leads to the note of its accepted reply and then to events. -/
private theorem moves_of_operation (engine : Engine) (operation : Operation) :
    ∃ events : List Event,
      Moves engine (engine.accepted operation ++ events.map Entry.event)
        (engine.operate operation) := by
  cases operation with
  | release slot => exact engine.proceeds_release slot
  | edit change => exact (Move.edited change).proceeds_silent
  | command command =>
    obtain ⟨events, hhandle⟩ := engine.moves_handle command
    obtain ⟨others, hsettle⟩ := (engine.handle command).1.proceeds_settle
    refine ⟨events ++ others, ?_⟩
    rw [List.map_append, ← List.append_assoc]
    exact hhandle.trans hsettle

/-- An operation leaves its notes. -/
theorem moves_operate (engine : Engine) (operation : Operation) :
    Moves engine (engine.notes operation) (engine.operate operation) := by
  obtain ⟨events, hm⟩ := engine.moves_of_operation operation
  have hlog := hm.log
  rw [List.filterMap_append, filterMap_event?, filterMap_accepted, List.nil_append] at hlog
  rw [notes, hlog, List.drop_left]
  exact hm

/-- A run leaves its chronicle. -/
theorem moves_play (engine : Engine) (operations : List Operation) :
    Moves engine (engine.chronicle operations) (engine.play operations) := by
  induction operations generalizing engine with
  | nil => exact .refl engine
  | cons operation operations ih => exact (engine.moves_operate operation).trans (ih _)

end Engine
end Encounter
