import Encounter.Engine.Basic

/-!
# Commands

Clients trigger scripts, answer prompts and report that a player left or moved. A command that is
refused changes nothing.
-/

namespace Encounter

/-- What became of a trigger. -/
inductive TriggerOutcome where
  /-- Its session started. -/
  | started (id : SessionId)
  /-- It waits behind the running session of the same player and key. -/
  | queued (id : SessionId)
  /-- No script answers its key. -/
  | unbound
  deriving DecidableEq, Repr

/-- The session of an accepted trigger. -/
def TriggerOutcome.session? : TriggerOutcome → Option SessionId
  | started id => some id
  | queued id => some id
  | unbound => none

/-- A request of a client. -/
inductive Command where
  /-- The player touches something. -/
  | trigger (player : PlayerId) (trigger : Trigger)
  /-- The player answers a prompt. -/
  | respond (player : PlayerId) (reply : Reply)
  /-- The player is gone. -/
  | disconnect (player : PlayerId)
  /-- The player is on that map now. -/
  | playerMoved (player : PlayerId) (map : MapId)
  /-- Lists the active sessions. -/
  | sessions
  /-- Ends everything. -/
  | shutdown
  deriving DecidableEq, Repr

/-- What the engine answers to a command that it accepts. -/
inductive Answer where
  | triggered (outcome : TriggerOutcome)
  | resumed
  /-- Tells whether a session was cut off. -/
  | cancelled (any : Bool)
  | sessions (infos : List SessionInfo)
  /-- The number of sessions that were cut off. -/
  | stopped (count : Nat)
  deriving DecidableEq, Repr

namespace Engine

/-- Starts a session under the next number. -/
def startNext (engine : Engine) (view : PlayerView) (trigger : Trigger) (script : NamedScript) : Engine :=
  { engine with table := engine.table.allocate }.start engine.table.next view trigger script []

/-- Queues a trigger, under the next number, behind a running session. -/
def enqueue (engine : Engine) (id : SessionId) (trigger : Trigger) : Engine :=
  { engine with table := engine.table.allocate.enqueue id ⟨engine.table.next, trigger⟩ }

/-- The open dialogue that keeps a player from touching something: NPCs want the player alone,
reactors do not care. -/
def barring? (engine : Engine) (player : PlayerId) (kind : TriggerKind) : Option Session :=
  match kind with
  | .npc => (engine.table.suspendedOf? player).map Prod.snd
  | .reactor => none

/-- A player touches something. While a session of the same player and key runs, the trigger is
queued; while that session waits for an answer, it is refused. An NPC is also refused while any
dialogue of the player is open. -/
def trigger (engine : Engine) (player : PlayerId) (trigger : Trigger) :
    Engine × Except EngineError TriggerOutcome :=
  match engine.registry.find? trigger.key with
  | none => (engine, .ok .unbound)
  | some script =>
    match engine.table.inSlot? ⟨player, trigger.key⟩ with
    | some (id, session) =>
      if session.isSuspended then (engine, .error (.sessionBusy player session.trigger))
      else if (engine.world.player? player).isNone then (engine, .error (.unknownPlayer player))
      else (engine.enqueue id trigger, .ok (.queued engine.table.next))
    | none =>
      match engine.barring? player trigger.kind with
      | some dialogue => (engine, .error (.sessionBusy player dialogue.trigger))
      | none =>
        match engine.world.player? player with
        | none => (engine, .error (.unknownPlayer player))
        | some view =>
          (engine.startNext view trigger script, .ok (.started engine.table.next))

/-- A player answers the prompt of the open dialogue. The phase of its session is taken out, and put
back if the reply does not fit the prompt. -/
def respond (engine : Engine) (player : PlayerId) (reply : Reply) :
    Engine × Except EngineError Unit :=
  match engine.table.suspendedOf? player with
  | none =>
    if (engine.table.idsOf player).isEmpty then (engine, .error (.noActiveSession player))
    else (engine, .error (.notAwaitingInput player))
  | some (id, session) =>
    let engine := { engine with table := engine.table.setPhase id .running }
    match session.phase with
    | .running => (engine, .error (.notAwaitingInput player))
    | .suspended prompt resume =>
      if prompt.accepts reply then
        ({ engine with
            tasks := engine.tasks.insert id
              ⟨⟨session.player, session.trigger⟩, Script.answer prompt resume reply, false⟩ },
          .ok ())
      else
        ({ engine with table := engine.table.setPhase id (.suspended prompt resume) },
          .error (.replyMismatch player prompt.kind reply))

/-- A player is gone: all their sessions are cut off. -/
def disconnect (engine : Engine) (player : PlayerId) : Engine × Bool :=
  let ids := engine.table.idsOf player
  (engine.cancelEach ids .disconnected, !ids.isEmpty)

/-- A player is on a map: the open dialogue is cut off if it was begun on another one. -/
def playerMoved (engine : Engine) (player : PlayerId) (map : MapId) : Engine × Bool :=
  match engine.table.suspendedOf? player with
  | some (id, session) =>
    if session.trigger.map = map then (engine, false)
    else (engine.cancel id .mapChanged, true)
  | none => (engine, false)

/-- Ends everything: all sessions are cut off and no further command is accepted. -/
def shutdown (engine : Engine) : Engine × Nat :=
  let ids := engine.table.ids
  ({ engine.cancelEach ids .shutdown with accepting := false }, ids.length)

/-- Handles a command. -/
def handle (engine : Engine) (command : Command) : Engine × Except EngineError Answer :=
  if !engine.accepting then (engine, .error .closed)
  else
    match command with
    | .trigger player trigger =>
      let (engine, result) := engine.trigger player trigger
      (engine, result.map .triggered)
    | .respond player reply =>
      let (engine, result) := engine.respond player reply
      (engine, result.map fun _ => .resumed)
    | .disconnect player =>
      let (engine, any) := engine.disconnect player
      (engine, .ok (.cancelled any))
    | .playerMoved player map =>
      let (engine, any) := engine.playerMoved player map
      (engine, .ok (.cancelled any))
    | .sessions => (engine, .ok (.sessions engine.table.infos))
    | .shutdown =>
      let (engine, count) := engine.shutdown
      (engine, .ok (.stopped count))

/-- Handles a command and runs until the engine is quiet again. -/
def perform (engine : Engine) (command : Command) : Engine × Except EngineError Answer :=
  let (engine, answer) := engine.handle command
  (engine.settle, answer)

/-- Changes the world from outside. -/
def editWorld (engine : Engine) (edit : World → World) : Engine :=
  { engine with world := edit engine.world }

/-- Lets the parked task of a slot go on; false if there is none. -/
def release (engine : Engine) (slot : Slot) : Engine × Bool :=
  match engine.table.inSlot? slot with
  | none => (engine, false)
  | some (id, _) =>
    match engine.tasks.find? id with
    | some task =>
      if task.parked then
        ({ engine with tasks := engine.tasks.insert id { task with parked := false } }.settle, true)
      else (engine, false)
    | none => (engine, false)

end Engine

end Encounter
