import Encounter.Proofs.Session.Lookup

/-!
# What clients see of the table

The listing of the sessions, looked up by number: how each operation of the table changes it, and
that the list holds exactly what the lookup gives, in ascending order.
-/

namespace Encounter
namespace SessionTable

/-- What clients see of the session of that number. -/
def info? (table : SessionTable) (id : SessionId) : Option SessionInfo :=
  (table.find? id).map fun session =>
    ⟨id, session.player, session.trigger, session.phase.prompt?⟩

theorem info?_of_find? {table : SessionTable} {id : SessionId} {session : Session}
    (h : table.find? id = some session) :
    table.info? id = some ⟨id, session.player, session.trigger, session.phase.prompt?⟩ := by
  rw [info?, h, Option.map_some]

/-- An active session is seen under its own number. -/
theorem find?_of_info? {table : SessionTable} {id : SessionId} {info : SessionInfo}
    (h : table.info? id = some info) :
    ∃ session, table.find? id = some session ∧
      info = ⟨id, session.player, session.trigger, session.phase.prompt?⟩ := by
  obtain ⟨session, hf, he⟩ := Option.map_eq_some_iff.1 h
  exact ⟨session, hf, he.symm⟩

/-- A new session is seen; the others look as before. -/
theorem info?_add (table : SessionTable) (id other : SessionId) (session : Session) :
    (table.add id session).info? other =
      if other = id then some ⟨id, session.player, session.trigger, session.phase.prompt?⟩
      else table.info? other := by
  unfold info?
  rw [find?_add]
  split
  · next h => rw [h, Option.map_some]
  · rfl

/-- A session that left is not seen; the others look as before. -/
theorem info?_remove (table : SessionTable) (id other : SessionId) (session : Session) :
    (table.remove id session).info? other = if other = id then none else table.info? other := by
  unfold info?
  rw [find?_remove]
  split <;> rfl

/-- Of a session in a new phase the prompt changes; the others look as before. -/
theorem info?_setPhase {table : SessionTable} {id : SessionId} {session : Session}
    (h : table.find? id = some session) (phase : Phase) (other : SessionId) :
    (table.setPhase id phase).info? other =
      if other = id then some ⟨id, session.player, session.trigger, phase.prompt?⟩
      else table.info? other := by
  unfold info?
  rw [find?_setPhase, h]
  split
  · next he => rw [he, Option.map_some, Option.map_some]
  · rfl

/-- Queues are not seen. -/
theorem info?_enqueue (table : SessionTable) (id other : SessionId) (queued : QueuedTrigger) :
    (table.enqueue id queued).info? other = table.info? other := by
  unfold info?
  rw [find?_enqueue]
  split
  · next he =>
    rw [he, Option.map_map]
    rfl
  · rfl

/-- The listing holds what is seen of each session. -/
theorem mem_infos_iff {table : SessionTable} {info : SessionInfo} :
    info ∈ table.infos ↔ table.info? info.id = some info := by
  unfold infos info?
  rw [List.mem_map, Option.map_eq_some_iff]
  constructor
  · rintro ⟨⟨id, session⟩, hm, rfl⟩
    exact ⟨session, Table.find?_eq_some_iff.2 hm, rfl⟩
  · rintro ⟨session, hf, he⟩
    exact ⟨(info.id, session), Table.find?_eq_some_iff.1 hf, he⟩

/-- What is listed is what is seen of a session. -/
theorem find?_of_mem_infos {table : SessionTable} {info : SessionInfo} (h : info ∈ table.infos) :
    ∃ session, table.find? info.id = some session ∧ session.player = info.player ∧
      session.trigger = info.trigger ∧ session.phase.prompt? = info.prompt := by
  obtain ⟨session, hf, he⟩ := find?_of_info? (mem_infos_iff.1 h)
  refine ⟨session, hf, ?_, ?_, ?_⟩ <;> rw [he]

/-- A number is listed when a session has it. -/
theorem mem_map_id_infos_iff {table : SessionTable} {id : SessionId} :
    id ∈ table.infos.map SessionInfo.id ↔ ∃ info, table.info? id = some info := by
  rw [List.mem_map]
  constructor
  · rintro ⟨info, hm, rfl⟩
    exact ⟨info, mem_infos_iff.1 hm⟩
  · rintro ⟨info, h⟩
    have hid : info.id = id := by
      obtain ⟨session, -, rfl⟩ := find?_of_info? h
      rfl
    refine ⟨info, mem_infos_iff.2 ?_, hid⟩
    rw [hid, h]

/-- The listing ascends strictly. -/
theorem pairwise_infos (table : SessionTable) :
    (table.infos.map SessionInfo.id).Pairwise fun a b => a.val < b.val := by
  have hkeys : table.infos.map SessionInfo.id = table.sessions.keys := by
    unfold infos Table.keys
    rw [List.map_map]
    rfl
  rw [hkeys]
  apply table.sessions.ascending_keys.imp
  intro a b h
  exact Nat.compare_eq_lt.1 h

end SessionTable
end Encounter
