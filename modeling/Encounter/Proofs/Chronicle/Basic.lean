import Encounter.Engine.Command

/-!
# Runs and their chronicles

A run is a list of operations on the engine; after each of them the tasks go on until the engine is
quiet. The chronicle of a run is what an observer notes down: the events in the order in which they
were published, and between them the replies that were accepted.
-/

namespace Encounter

/-- Something that is done to a quiet engine. -/
inductive Operation where
  /-- A client sends a command. -/
  | command (command : Command)
  /-- The parked script of a slot may go on. -/
  | release (slot : Slot)
  /-- The world changes from outside. -/
  | edit (change : World → World)

/-- A note in a chronicle. -/
inductive Entry where
  | event (event : Event)
  /-- A reply to the prompt of that session was accepted. -/
  | replied (id : SessionId)
  deriving DecidableEq, Repr

namespace Entry

/-- The session that a note is about. -/
def session : Entry → SessionId
  | .event e => e.session
  | .replied id => id

/-- The event that was noted down. -/
def event? : Entry → Option Event
  | .event e => some e
  | .replied _ => none

end Entry

namespace Engine

/-- Carries out an operation and runs until the engine is quiet. -/
def operate (engine : Engine) : Operation → Engine
  | .command command => (engine.perform command).1
  | .release slot => (engine.release slot).1
  | .edit change => engine.editWorld change

/-- Carries out operations from left to right. -/
def play (engine : Engine) (operations : List Operation) : Engine := operations.foldl operate engine

/-- The note of an accepted reply; nothing for another operation or a refused reply. -/
def accepted (engine : Engine) : Operation → List Entry
  | .command (.respond player reply) =>
    match (engine.perform (.respond player reply)).2, engine.table.suspendedOf? player with
    | .ok _, some (id, _) => [.replied id]
    | _, _ => []
  | _ => []

/-- The notes of one operation: its reply, then the events it led to. -/
def notes (engine : Engine) (operation : Operation) : List Entry :=
  engine.accepted operation ++
    ((engine.operate operation).log.drop engine.log.length).map Entry.event

/-- The chronicle of a run. -/
def chronicle (engine : Engine) : List Operation → List Entry
  | [] => []
  | operation :: operations =>
    engine.notes operation ++ chronicle (engine.operate operation) operations

end Engine
end Encounter
