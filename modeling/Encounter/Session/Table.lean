import Encounter.Table
import Encounter.Session.Basic

/-!
# The table of active sessions

The table keeps the active sessions by number and, as an index, the number of the session in each
slot. The operations are total on any record; `SessionTable.WF` says when index and sessions fit
together.
-/

namespace Encounter

/-- The active sessions, the index of their slots and the number of the next one. -/
structure SessionTable where
  sessions : Table SessionId Session
  bySlot : Table Slot SessionId
  next : SessionId

namespace SessionTable

/-- No session; the first will be number 1. -/
def empty : SessionTable := ⟨.empty, .empty, ⟨1⟩⟩

/-- The session of that number. -/
def find? (table : SessionTable) (id : SessionId) : Option Session := table.sessions.find? id

/-- The session in a slot, with its number. -/
def inSlot? (table : SessionTable) (slot : Slot) : Option (SessionId × Session) := do
  let id ← table.bySlot.find? slot
  return (id, ← table.find? id)

/-- The first session of the player that waits for an answer, with its number. -/
def suspendedOf? (table : SessionTable) (player : PlayerId) : Option (SessionId × Session) :=
  table.sessions.entries.find? fun entry => entry.2.player == player && entry.2.isSuspended

/-- The numbers of the player's sessions, in ascending order. -/
def idsOf (table : SessionTable) (player : PlayerId) : List SessionId :=
  (table.sessions.entries.filter fun entry => entry.2.player == player).map Prod.fst

/-- The numbers of all sessions, in ascending order. -/
def ids (table : SessionTable) : List SessionId := table.sessions.keys

/-- What clients see of the sessions, in ascending order of their numbers. -/
def infos (table : SessionTable) : List SessionInfo :=
  table.sessions.entries.map fun entry =>
    ⟨entry.1, entry.2.player, entry.2.trigger, entry.2.phase.prompt?⟩

/-- The number of triggers that wait in queues. -/
def queued (table : SessionTable) : Nat :=
  (table.sessions.values.flatMap fun session => session.queue).length

/-- Gives away the next number. -/
def allocate (table : SessionTable) : SessionTable := { table with next := ⟨table.next.val + 1⟩ }

/-- Adds a session to the table and to the index. -/
def add (table : SessionTable) (id : SessionId) (session : Session) : SessionTable :=
  { table with
    sessions := table.sessions.insert id session
    bySlot := table.bySlot.insert session.slot id }

/-- Changes the phase of a session. -/
def setPhase (table : SessionTable) (id : SessionId) (phase : Phase) : SessionTable :=
  { table with sessions := table.sessions.modify id fun session => { session with phase } }

/-- Appends a trigger to the queue of a session. -/
def enqueue (table : SessionTable) (id : SessionId) (trigger : QueuedTrigger) : SessionTable :=
  { table with
    sessions := table.sessions.modify id fun session =>
      { session with queue := session.queue ++ [trigger] } }

/-- Takes a session out of the table, and out of the index if its slot still points to it. -/
def remove (table : SessionTable) (id : SessionId) (session : Session) : SessionTable :=
  { table with
    sessions := table.sessions.erase id
    bySlot :=
      if table.bySlot.find? session.slot = some id then table.bySlot.erase session.slot
      else table.bySlot }

/-- Index and sessions are inverse to each other, queues hold triggers of their session's key, and
all numbers in the table and in queues are distinct and were given away. -/
structure WF (table : SessionTable) : Prop where
  /-- The slot of a session points to it. -/
  bySlot_of_find? : ∀ id session, table.find? id = some session →
    table.bySlot.find? session.slot = some id
  /-- A slot points to a session in it. -/
  find?_of_bySlot : ∀ slot id, table.bySlot.find? slot = some id →
    ∃ session, table.find? id = some session ∧ session.slot = slot
  /-- A queued trigger has the key of the session it waits for. -/
  key_of_mem_queue : ∀ id session, table.find? id = some session →
    ∀ queued ∈ session.queue, queued.trigger.key = session.trigger.key
  /-- No number occurs twice. -/
  nodup : (table.sessions.entries.flatMap fun entry =>
    entry.1 :: entry.2.queue.map QueuedTrigger.id).Nodup
  /-- Every number was given away. -/
  lt_next : ∀ id ∈ table.sessions.entries.flatMap (fun entry =>
    entry.1 :: entry.2.queue.map QueuedTrigger.id), id.val < table.next.val

end SessionTable

end Encounter
