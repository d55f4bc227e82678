import Encounter.Proofs.Session.Slot

/-!
# A trigger that waits shows nowhere else

Queueing a trigger behind a session takes a number and makes one queue longer. All searches find the
same sessions as before, and every other change of the table may as well come first.
-/

namespace Encounter
namespace SessionTable

variable (table : SessionTable) (id : SessionId) (trigger : Trigger)

/-- Gives the next number to a trigger and queues it behind a session. -/
def queueUp : SessionTable := table.allocate.enqueue id ⟨table.next, trigger⟩

/-- What that makes of the sessions: the one of the number `id` gets a longer queue. -/
def extended (other : SessionId) (session : Session) : Session :=
  if other = id then { session with queue := session.queue ++ [⟨table.next, trigger⟩] }
  else session

variable (other : SessionId) (session : Session)

@[simp] theorem player_extended :
    (table.extended id trigger other session).player = session.player := by
  unfold extended
  split <;> rfl

@[simp] theorem trigger_extended :
    (table.extended id trigger other session).trigger = session.trigger := by
  unfold extended
  split <;> rfl

@[simp] theorem phase_extended :
    (table.extended id trigger other session).phase = session.phase := by
  unfold extended
  split <;> rfl

@[simp] theorem slot_extended :
    (table.extended id trigger other session).slot = session.slot := by
  simp [Session.slot]

@[simp] theorem isSuspended_extended :
    (table.extended id trigger other session).isSuspended = session.isSuspended := by
  simp [Session.isSuspended]

/-- The queues of other sessions stay. -/
theorem extended_of_ne {other : SessionId} (h : other ≠ id) :
    table.extended id trigger other session = session := if_neg h

theorem find?_queueUp :
    (table.queueUp id trigger).find? other =
      (table.find? other).map (table.extended id trigger other) :=
  Table.find?_modify_eq_map _ _ _ _

theorem inSlot?_queueUp (slot : Slot) :
    (table.queueUp id trigger).inSlot? slot =
      (table.inSlot? slot).map fun entry =>
        (entry.1, table.extended id trigger entry.1 entry.2) := by
  refine (inSlot?_modify table.allocate id _ slot).trans ?_
  congr 1
  funext entry
  unfold extended
  split <;> rfl

private theorem entries_queueUp :
    (table.queueUp id trigger).sessions.entries =
      table.sessions.entries.map fun entry =>
        (entry.1, table.extended id trigger entry.1 entry.2) := by
  apply List.map_congr_left
  intro entry _
  unfold extended
  simp only [Std.LawfulEqCmp.compare_eq_iff_eq, eq_comm (a := id)]

theorem suspendedOf?_queueUp (player : PlayerId) :
    (table.queueUp id trigger).suspendedOf? player =
      (table.suspendedOf? player).map fun entry =>
        (entry.1, table.extended id trigger entry.1 entry.2) := by
  unfold suspendedOf?
  rw [entries_queueUp, List.find?_map]
  simp only [Function.comp_def, player_extended, isSuspended_extended]

theorem idsOf_queueUp (player : PlayerId) :
    (table.queueUp id trigger).idsOf player = table.idsOf player := by
  unfold idsOf
  rw [entries_queueUp, List.filter_map, List.map_map]
  simp [Function.comp_def]

theorem ids_queueUp : (table.queueUp id trigger).ids = table.ids := by
  unfold ids Table.keys
  rw [entries_queueUp, List.map_map]
  rfl

theorem infos_queueUp : (table.queueUp id trigger).infos = table.infos := by
  unfold infos
  rw [entries_queueUp, List.map_map]
  simp [Function.comp_def]

theorem setPhase_queueUp (phase : Phase) :
    (table.queueUp id trigger).setPhase other phase =
      (table.setPhase other phase).queueUp id trigger := by
  unfold queueUp setPhase enqueue allocate
  dsimp only
  rw [Table.modify_modify_comm]
  exact fun session => rfl

theorem remove_queueUp :
    (table.queueUp id trigger).remove other (table.extended id trigger other session) =
      (table.remove other session).queueUp id trigger := by
  unfold remove
  rw [slot_extended]
  unfold queueUp enqueue allocate
  dsimp only
  rw [Table.erase_modify]

theorem add_queueUp {other : SessionId} (h : other ≠ id) :
    (table.queueUp id trigger).add other session =
      (table.add other session).queueUp id trigger := by
  unfold queueUp add enqueue allocate
  dsimp only
  rw [Table.insert_modify_of_ne _ h]

/-- Behind a session that is gone nothing waits. -/
theorem queueUp_of_find?_eq_none {table : SessionTable} {id : SessionId}
    (h : table.find? id = none) (trigger : Trigger) :
    table.queueUp id trigger = table.allocate := by
  unfold queueUp enqueue
  have hsame := Table.modify_of_find?_eq_none (fun session : Session =>
    { session with queue := session.queue ++ [⟨table.next, trigger⟩] }) h
  exact congrArg (fun sessions => { table.allocate with sessions }) hsame

end SessionTable
end Encounter
