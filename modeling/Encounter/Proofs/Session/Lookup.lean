import Encounter.Session.Table
import Encounter.Proofs.Table.Entries

/-!
# Looking up sessions

What each operation of the session table does to the lookup by number, what the searches by slot and
by player find, and the numbers that are in use. A session stands in the table together with the
numbers of its queue, so adding or removing it adds or removes that block of numbers.
-/

namespace Encounter

/-- A phase with a prompt waits on it. -/
theorem Phase.of_prompt?_eq_some {phase : Phase} {prompt : Prompt}
    (h : phase.prompt? = some prompt) : ∃ next, phase = .suspended prompt next := by
  cases phase with
  | running => cases h
  | suspended shown next =>
    cases h
    exact ⟨next, rfl⟩

namespace SessionTable

@[simp] theorem find?_empty (id : SessionId) : empty.find? id = none := rfl

@[simp] theorem find?_allocate (table : SessionTable) (id : SessionId) :
    table.allocate.find? id = table.find? id := rfl

/-- After an addition the number has the new session; other numbers keep theirs. -/
theorem find?_add (table : SessionTable) (id other : SessionId) (session : Session) :
    (table.add id session).find? other = if other = id then some session else table.find? other :=
  Table.find?_insert _ _ _ _

/-- After a removal the number is free; other numbers keep their sessions. -/
theorem find?_remove (table : SessionTable) (id other : SessionId) (session : Session) :
    (table.remove id session).find? other = if other = id then none else table.find? other :=
  Table.find?_erase _ _ _

/-- A new phase is the only change, and of one session only. -/
theorem find?_setPhase (table : SessionTable) (id other : SessionId) (phase : Phase) :
    (table.setPhase id phase).find? other =
      if other = id then (table.find? id).map fun session => { session with phase }
      else table.find? other :=
  Table.find?_modify _ _ _ _

/-- Of two new phases the later one stays. -/
theorem setPhase_setPhase (table : SessionTable) (id : SessionId) (phase later : Phase) :
    (table.setPhase id phase).setPhase id later = table.setPhase id later := by
  refine congrArg (fun sessions => { table with sessions }) (Table.ext_find? fun other => ?_)
  simp only [setPhase, Table.find?_modify, if_pos, Option.map_map]
  split <;> rfl

/-- A session that stays in its phase does not change. -/
theorem setPhase_eq_self {table : SessionTable} {id : SessionId} {session : Session}
    (h : table.find? id = some session) : table.setPhase id session.phase = table := by
  unfold setPhase
  rw [Table.modify_eq_insert _ h]
  exact congrArg (fun sessions => { table with sessions }) (Table.insert_eq_self h)

/-- A longer queue is the only change, and of one session only. -/
theorem find?_enqueue (table : SessionTable) (id other : SessionId) (queued : QueuedTrigger) :
    (table.enqueue id queued).find? other =
      if other = id then
        (table.find? id).map fun session => { session with queue := session.queue ++ [queued] }
      else table.find? other :=
  Table.find?_modify _ _ _ _

/-- A slot leads to the session that the index names. -/
theorem inSlot?_eq_some_iff {table : SessionTable} {slot : Slot} {id : SessionId}
    {session : Session} :
    table.inSlot? slot = some (id, session) ↔
      table.bySlot.find? slot = some id ∧ table.find? id = some session := by
  unfold inSlot?
  cases hs : table.bySlot.find? slot with
  | none => simp
  | some other =>
    cases hf : table.find? other with
    | none =>
      have hne : ¬ (other = id ∧ table.find? id = some session) := by
        rintro ⟨rfl, h⟩
        simp [hf] at h
      simp [hf, hne]
    | some found =>
      constructor
      · intro h
        simp only [Option.bind_eq_bind, Option.bind_some, hf, Option.pure_def] at h
        cases h
        exact ⟨rfl, hf⟩
      · rintro ⟨h, hid⟩
        cases h
        rw [hf] at hid
        cases hid
        simp [hf]

/-- In a well-formed table a slot without a session is not in the index. -/
theorem WF.bySlot_eq_none {table : SessionTable} (h : table.WF) {slot : Slot}
    (hs : table.inSlot? slot = none) : table.bySlot.find? slot = none := by
  cases hi : table.bySlot.find? slot with
  | none => rfl
  | some id =>
    obtain ⟨session, hf, -⟩ := h.find?_of_bySlot slot id hi
    rw [inSlot?_eq_some_iff.2 ⟨hi, hf⟩] at hs
    cases hs

/-- The dialogue that is found is one of the player. -/
theorem of_suspendedOf?_eq_some {table : SessionTable} {player : PlayerId} {id : SessionId}
    {session : Session} (h : table.suspendedOf? player = some (id, session)) :
    table.find? id = some session ∧ session.player = player ∧ session.isSuspended = true := by
  have hm := List.mem_of_find?_eq_some h
  have hp := List.find?_some h
  simp only [Bool.and_eq_true, beq_iff_eq] at hp
  exact ⟨Table.find?_eq_some_iff.2 hm, hp.1, hp.2⟩

/-- No dialogue is found exactly when none of the player's sessions waits. -/
theorem suspendedOf?_eq_none_iff {table : SessionTable} {player : PlayerId} :
    table.suspendedOf? player = none ↔
      ∀ id session, table.find? id = some session → session.player = player →
        session.isSuspended = false := by
  unfold suspendedOf?
  rw [List.find?_eq_none]
  constructor
  · intro h id session hf hp
    have := h (id, session) (Table.find?_eq_some_iff.1 hf)
    simpa [hp] using this
  · rintro h ⟨id, session⟩ hm
    have hf : table.find? id = some session := Table.find?_eq_some_iff.2 hm
    by_cases hp : session.player = player
    · simp [h id session hf hp]
    · simp [hp]

/-- The player's numbers are those of their sessions. -/
theorem mem_idsOf_iff {table : SessionTable} {player : PlayerId} {id : SessionId} :
    id ∈ table.idsOf player ↔
      ∃ session, table.find? id = some session ∧ session.player = player := by
  unfold idsOf
  constructor
  · intro h
    obtain ⟨⟨other, session⟩, hm, rfl⟩ := List.mem_map.1 h
    simp only [List.mem_filter, beq_iff_eq] at hm
    exact ⟨session, Table.find?_eq_some_iff.2 hm.1, hm.2⟩
  · rintro ⟨session, hf, hp⟩
    apply List.mem_map.2
    exact ⟨(id, session), List.mem_filter.2 ⟨Table.find?_eq_some_iff.1 hf, by simp [hp]⟩, rfl⟩

/-- All numbers are those of the sessions. -/
theorem mem_ids_iff {table : SessionTable} {id : SessionId} :
    id ∈ table.ids ↔ ∃ session, table.find? id = some session := by
  rw [ids, ← Table.isSome_find?_iff, Option.isSome_iff_exists]
  rfl

/-- The numbers of a session and of the triggers queued behind it. -/
def block (id : SessionId) (session : Session) : List SessionId :=
  id :: session.queue.map QueuedTrigger.id

/-- The numbers of all sessions and of all queued triggers. -/
def numbers (table : SessionTable) : List SessionId :=
  table.sessions.entries.flatMap fun entry => block entry.1 entry.2

/-- A number is in use when it stands in the block of a session. -/
theorem mem_numbers_iff {table : SessionTable} {n : SessionId} :
    n ∈ table.numbers ↔ ∃ id session, table.find? id = some session ∧ n ∈ block id session := by
  unfold numbers
  rw [List.mem_flatMap]
  constructor
  · rintro ⟨⟨id, session⟩, hm, hn⟩
    exact ⟨id, session, Table.find?_eq_some_iff.2 hm, hn⟩
  · rintro ⟨id, session, hf, hn⟩
    exact ⟨(id, session), Table.find?_eq_some_iff.1 hf, hn⟩

/-- The number of an active session is in use. -/
theorem mem_numbers_of_find? {table : SessionTable} {id : SessionId} {session : Session}
    (h : table.find? id = some session) : id ∈ table.numbers :=
  mem_numbers_iff.2 ⟨id, session, h, List.mem_cons_self⟩

/-- The numbers are the block of a session and those that stay without it. -/
theorem perm_numbers_remove {table : SessionTable} {id : SessionId} {session : Session}
    (h : table.find? id = some session) :
    table.numbers.Perm (block id session ++ (table.remove id session).numbers) := by
  have hp := (Table.perm_of_find?_eq_some h).flatMap_right fun entry => block entry.1 entry.2
  rwa [List.flatMap_cons] at hp

/-- A session under a free number adds its block. -/
theorem perm_numbers_add {table : SessionTable} {id : SessionId} (session : Session)
    (h : table.find? id = none) :
    (table.add id session).numbers.Perm (block id session ++ table.numbers) := by
  have hp := (Table.perm_insert table.sessions id session).flatMap_right
    fun entry => block entry.1 entry.2
  rwa [List.flatMap_cons, Table.erase_of_find?_eq_none h] at hp

/-- Changing a session replaces its block. -/
private theorem perm_numbers_modify {table : SessionTable} {id : SessionId} {session : Session}
    (f : Session → Session) (h : table.find? id = some session) :
    ({ table with sessions := table.sessions.modify id f } : SessionTable).numbers.Perm
      (block id (f session) ++ (table.remove id session).numbers) := by
  have hp := (Table.perm_insert table.sessions id (f session)).flatMap_right
    fun entry => block entry.1 entry.2
  rw [List.flatMap_cons, ← Table.modify_eq_insert f h] at hp
  exact hp

/-- A change of phase keeps all numbers. -/
theorem perm_numbers_setPhase (table : SessionTable) (id : SessionId) (phase : Phase) :
    (table.setPhase id phase).numbers.Perm table.numbers := by
  cases h : table.find? id with
  | none =>
    have he : table.setPhase id phase = table := by
      unfold setPhase
      rw [Table.modify_of_find?_eq_none _ h]
    rw [he]
  | some session =>
    exact (perm_numbers_modify (fun session => { session with phase }) h).trans
      (perm_numbers_remove h).symm

/-- Queueing a trigger adds its number. -/
theorem perm_numbers_enqueue {table : SessionTable} {id : SessionId} {session : Session}
    (queued : QueuedTrigger) (h : table.find? id = some session) :
    (table.enqueue id queued).numbers.Perm (queued.id :: table.numbers) := by
  have hp := perm_numbers_modify
    (fun session => { session with queue := session.queue ++ [queued] }) h
  have hb : (block id { session with queue := session.queue ++ [queued] }).Perm
      (queued.id :: block id session) := by
    simp only [block, List.map_append, List.map_cons, List.map_nil]
    exact (List.perm_append_singleton queued.id _ |>.cons id).trans (List.Perm.swap _ _ _)
  exact hp.trans ((hb.append_right _).trans ((perm_numbers_remove h).symm.cons _))

/-- The number of triggers that wait without the session of that number. -/
def queuedBeside (table : SessionTable) (id : SessionId) : Nat :=
  ((table.sessions.erase id).entries.flatMap fun entry => entry.2.queue).length

private theorem queued_eq (table : SessionTable) :
    table.queued = (table.sessions.entries.flatMap fun entry => entry.2.queue).length := by
  unfold queued Table.values
  rw [List.flatMap_map]

/-- A removal leaves the triggers that wait behind others. -/
theorem queued_remove (table : SessionTable) (id : SessionId) (session : Session) :
    (table.remove id session).queued = table.queuedBeside id :=
  queued_eq _

/-- The triggers that wait are those behind a session and those behind the others. -/
theorem queued_of_find? {table : SessionTable} {id : SessionId} {session : Session}
    (h : table.find? id = some session) :
    table.queued = session.queue.length + table.queuedBeside id := by
  have hp := (Table.perm_of_find?_eq_some h).flatMap_right fun entry => entry.2.queue
  rw [List.flatMap_cons] at hp
  rw [queued_eq, hp.length_eq, List.length_append]
  rfl

/-- Those behind others are no more than all. -/
theorem queuedBeside_le (table : SessionTable) (id : SessionId) :
    table.queuedBeside id ≤ table.queued := by
  cases h : table.find? id with
  | none =>
    have he : table.queuedBeside id = table.queued := by
      unfold queuedBeside
      rw [Table.erase_of_find?_eq_none h, ← queued_eq]
    exact Nat.le_of_eq he
  | some session =>
    rw [queued_of_find? h]
    exact Nat.le_add_left _ _

/-- A session brings the triggers that wait behind it. -/
theorem queued_add (table : SessionTable) (id : SessionId) (session : Session) :
    (table.add id session).queued = session.queue.length + table.queuedBeside id := by
  have hp := (Table.perm_insert table.sessions id session).flatMap_right fun entry =>
    entry.2.queue
  rw [List.flatMap_cons] at hp
  rw [queued_eq]
  exact hp.length_eq.trans List.length_append

/-- A change of phase moves no trigger. -/
theorem queued_setPhase (table : SessionTable) (id : SessionId) (phase : Phase) :
    (table.setPhase id phase).queued = table.queued := by
  rw [queued_eq, queued_eq]
  unfold setPhase Table.modify
  dsimp only
  rw [List.flatMap_map]
  congr 2
  funext entry
  dsimp only [Function.comp]
  split <;> rfl

end SessionTable
end Encounter
