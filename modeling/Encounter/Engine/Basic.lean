import Encounter.World
import Encounter.Event
import Encounter.Session.Table
import Encounter.Script.Advance
import Encounter.Engine.Error

/-!
# The engine

The engine plays scripts for players. A script runs as a task; when the task stops it sends a notice,
and only the handling of notices and commands changes the table of sessions. A notice of a session
that is no longer active has no effect. Everything that happens is appended to the log.
-/

namespace Encounter

/-- A script on its way: who it acts for, what is left of it, and whether it waits to be released. -/
structure Task where
  origin : Origin
  script : Script Unit
  parked : Bool

/-- What a task reports when it stops. -/
inductive Notice where
  | suspended (session : SessionId) (prompt : Prompt) (resume : prompt.kind.Answer → Script Unit)
  | finished (session : SessionId) (result : Except ScriptError Unit)

/-- The state of the engine. -/
structure Engine where
  registry : Registry
  world : World
  table : SessionTable
  /-- The tasks of sessions, by the number of the session. -/
  tasks : Table SessionId Task
  /-- Notices that were sent but not yet handled, oldest first. -/
  notices : List Notice
  /-- All events so far, oldest first. -/
  log : List Event
  /-- False after a shutdown. -/
  accepting : Bool

namespace Engine

/-- An engine without sessions. -/
def new (registry : Registry) (world : World) : Engine :=
  ⟨registry, world, .empty, .empty, [], [], true⟩

/-- Builds an engine on a world, with the registry of the cast if none is given. -/
def build (world : Option World) (registry : Option Registry) : Except EngineError Engine :=
  match world with
  | none => .error .missingWorld
  | some world => .ok (new (registry.getD .builtin) world)

/-- Appends an event to the log. -/
def publish (engine : Engine) (subject : Subject) (happening : Happening) : Engine :=
  { engine with log := engine.log ++ [⟨subject, happening⟩] }

/-- What a script gets to know when it starts for that player. -/
def contextOf (engine : Engine) (view : PlayerView) (trigger : Trigger) : Context :=
  ⟨trigger, view, engine.world.map trigger.map, engine.world.partyOf? view.id⟩

/-- Starts a session: the event comes first, then the task. -/
def start (engine : Engine) (id : SessionId) (view : PlayerView) (trigger : Trigger)
    (script : NamedScript) (queue : List QueuedTrigger) : Engine :=
  let engine := engine.publish ⟨id, view.id, trigger⟩ .started
  { engine with
    table := engine.table.add id ⟨view.id, trigger, .running, queue⟩
    tasks := engine.tasks.insert id
      ⟨⟨view.id, trigger⟩, script.run (engine.contextOf view trigger), false⟩ }

/-- Starts the first queued trigger and leaves the others queued behind it. If the player is gone
all of them are dropped. -/
def startQueued (engine : Engine) (player : PlayerId) : List QueuedTrigger → Engine
  | [] => engine
  | queued :: rest =>
    match engine.registry.find? queued.trigger.key, engine.world.player? player with
    | some script, some view => engine.start queued.id view queued.trigger script rest
    | _, _ => engine

/-- Takes a session out of the table and publishes how it ended. -/
def conclude (engine : Engine) (id : SessionId) (session : Session) (outcome : Outcome) : Engine :=
  let engine := { engine with table := engine.table.remove id session }
  engine.publish ⟨id, session.player, session.trigger⟩ (.ended outcome)

/-- Cuts a session off together with its task; what is queued behind it is dropped. -/
def cancel (engine : Engine) (id : SessionId) (reason : CancelReason) : Engine :=
  match engine.table.find? id with
  | none => engine
  | some session =>
    let engine := engine.conclude id session (.cancelled reason)
    { engine with tasks := engine.tasks.erase id }

/-- Cuts the sessions off in the order given. -/
def cancelEach (engine : Engine) (ids : List SessionId) (reason : CancelReason) : Engine :=
  ids.foldl (fun engine id => engine.cancel id reason) engine

/-- A script shows a prompt. Only one dialogue of a player is open at a time: the script that comes
second is cut off. -/
def suspend (engine : Engine) (id : SessionId) (prompt : Prompt)
    (resume : prompt.kind.Answer → Script Unit) : Engine :=
  match engine.table.find? id with
  | none => engine
  | some session =>
    match engine.table.suspendedOf? session.player with
    | some _ => engine.cancel id .conversationOpen
    | none =>
      let engine := { engine with table := engine.table.setPhase id (.suspended prompt resume) }
      engine.publish ⟨id, session.player, session.trigger⟩ (.prompted prompt)

/-- A script ended: its session ends and the first trigger queued behind it starts. -/
def finish (engine : Engine) (id : SessionId) (result : Except ScriptError Unit) : Engine :=
  match engine.table.find? id with
  | none => engine
  | some session =>
    (engine.conclude id session (.ofResult result)).startQueued session.player session.queue

/-- Handles a notice. -/
def receive (engine : Engine) : Notice → Engine
  | .suspended id prompt resume => engine.suspend id prompt resume
  | .finished id result => engine.finish id result

/-- Carries out an effect of a session in the world and publishes it. -/
def carryOut (engine : Engine) (id : SessionId) (origin : Origin) (effect : Effect) : Engine :=
  { engine with world := engine.world.apply origin effect }.publish
    ⟨id, origin.player, origin.trigger⟩ (.effected effect)

/-- Runs a task up to its next stop. -/
def poll (engine : Engine) (id : SessionId) (task : Task) : Engine :=
  let (effects, stop) := task.script.advance
  let engine := effects.foldl (fun engine effect => engine.carryOut id task.origin effect) engine
  match stop with
  | .ended result =>
    { engine with
      tasks := engine.tasks.erase id
      notices := engine.notices ++ [.finished id result] }
  | .asking prompt resume =>
    { engine with
      tasks := engine.tasks.erase id
      notices := engine.notices ++ [.suspended id prompt resume] }
  | .parked next =>
    { engine with tasks := engine.tasks.insert id ⟨task.origin, next, true⟩ }

/-- The first task that can run. -/
def readyTask? (engine : Engine) : Option (SessionId × Task) :=
  engine.tasks.entries.find? fun entry => !entry.2.parked

/-- One step towards quiet: handles the oldest notice, or runs a task if there is none. -/
def step? (engine : Engine) : Option Engine :=
  match engine.notices with
  | notice :: rest => some ({ engine with notices := rest }.receive notice)
  | [] => engine.readyTask?.map fun entry => engine.poll entry.1 entry.2

/-- Is there nothing left to do until the next command? -/
def isQuiet (engine : Engine) : Bool := engine.step?.isNone

/-- A bound on the number of steps until the engine is quiet: a task that can run takes two, a notice
one and a queued trigger at most three. -/
def weight (engine : Engine) : Nat :=
  2 * engine.tasks.entries.countP (fun entry => !entry.2.parked) + engine.notices.length +
    3 * engine.table.queued

/-- Takes up to `steps` steps. -/
def stepUpTo : (steps : Nat) → Engine → Engine
  | 0, engine => engine
  | steps + 1, engine =>
    match engine.step? with
    | some engine => stepUpTo steps engine
    | none => engine

/-- Runs tasks and handles notices until the engine is quiet. -/
def settle (engine : Engine) : Engine := stepUpTo engine.weight engine

end Engine

end Encounter
