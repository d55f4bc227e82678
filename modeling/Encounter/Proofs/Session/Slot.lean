import Encounter.Proofs.Session.Change

/-!
# Slots and what waits in them

In a well-formed table the search by slot finds exactly the session that occupies the slot, so what
each operation does to the lookup by number carries over to the lookup by slot. The queue of a slot
is that of its session.
-/

namespace Encounter
namespace SessionTable

variable {table : SessionTable} {id : SessionId} {session : Session}

/-- A slot leads to the session that occupies it. -/
theorem WF.inSlot?_iff (h : table.WF) {slot : Slot} :
    table.inSlot? slot = some (id, session) ↔
      table.find? id = some session ∧ session.slot = slot := by
  rw [inSlot?_eq_some_iff]
  constructor
  · rintro ⟨hs, hf⟩
    obtain ⟨found, hfound, hslot⟩ := h.find?_of_bySlot slot id hs
    rw [hf] at hfound
    cases hfound
    exact ⟨hf, hslot⟩
  · rintro ⟨hf, rfl⟩
    exact ⟨h.bySlot_of_find? id session hf, hf⟩

/-- No two sessions occupy one slot. -/
private theorem WF.id_eq_of_slot_eq (h : table.WF) {other : SessionId} {found : Session}
    (hf : table.find? id = some session) (ho : table.find? other = some found)
    (hslot : found.slot = session.slot) : other = id := by
  have hs := h.bySlot_of_find? other found ho
  rw [hslot, h.bySlot_of_find? id session hf] at hs
  exact (Option.some.inj hs).symm

/-- A new session is found in its slot; the other slots are as before. -/
theorem WF.inSlot?_add (h : table.WF) (hadd : (table.add id session).WF)
    (hfree : table.find? id = none) (slot : Slot) :
    (table.add id session).inSlot? slot =
      if slot = session.slot then some (id, session) else table.inSlot? slot := by
  by_cases hslot : slot = session.slot
  · rw [if_pos hslot]
    apply hadd.inSlot?_iff.2
    simp [find?_add, hslot]
  · rw [if_neg hslot]
    ext ⟨other, found⟩
    rw [hadd.inSlot?_iff, h.inSlot?_iff, find?_add]
    by_cases ho : other = id
    · simp only [ho, if_true, hfree, Option.some.injEq, reduceCtorEq, false_and, iff_false,
        not_and]
      rintro rfl
      exact Ne.symm hslot
    · rw [if_neg ho]

/-- The slot of a session that left is free; the other slots are as before. -/
theorem WF.inSlot?_remove (h : table.WF) (hf : table.find? id = some session) (slot : Slot) :
    (table.remove id session).inSlot? slot =
      if slot = session.slot then none else table.inSlot? slot := by
  ext ⟨other, found⟩
  rw [(h.remove hf).inSlot?_iff, find?_remove]
  by_cases hslot : slot = session.slot
  · simp only [hslot, if_true, reduceCtorEq, iff_false, not_and]
    intro ho hs
    split at ho
    · cases ho
    · next hne => exact hne (h.id_eq_of_slot_eq hf ho hs)
  · rw [if_neg hslot, h.inSlot?_iff]
    by_cases ho : other = id
    · simp only [ho, if_true, hf, reduceCtorEq, false_and, Option.some.injEq, false_iff, not_and]
      rintro rfl
      exact Ne.symm hslot
    · rw [if_neg ho]

/-- A session that changes in place stays in its slot. -/
theorem inSlot?_modify (table : SessionTable) (id : SessionId) (f : Session → Session)
    (slot : Slot) :
    ({ table with sessions := table.sessions.modify id f } : SessionTable).inSlot? slot =
      (table.inSlot? slot).map fun entry =>
        if entry.1 = id then (entry.1, f entry.2) else entry := by
  unfold inSlot? find?
  cases hs : table.bySlot.find? slot with
  | none => rfl
  | some other =>
    simp only [Option.bind_eq_bind, Option.bind_some, Option.pure_def, Table.find?_modify]
    by_cases ho : other = id
    · rw [if_pos ho, ← ho]
      cases table.sessions.find? other <;> simp
    · rw [if_neg ho]
      cases table.sessions.find? other <;> simp [ho]

/-- The triggers that wait in a slot. -/
def queueIn (table : SessionTable) (slot : Slot) : List QueuedTrigger :=
  ((table.inSlot? slot).map fun entry => entry.2.queue).getD []

@[simp] theorem queueIn_allocate (table : SessionTable) (slot : Slot) :
    table.allocate.queueIn slot = table.queueIn slot := rfl

theorem queueIn_of_inSlot? {slot : Slot} (h : table.inSlot? slot = some (id, session)) :
    table.queueIn slot = session.queue := by
  rw [queueIn, h]
  rfl

theorem queueIn_of_free {slot : Slot} (h : table.inSlot? slot = none) :
    table.queueIn slot = [] := by
  rw [queueIn, h]
  rfl

/-- What waits in a slot waits for its key. -/
theorem WF.key_of_mem_queueIn (h : table.WF) {slot : Slot} {queued : QueuedTrigger}
    (hq : queued ∈ table.queueIn slot) : queued.trigger.key = slot.key := by
  cases hs : table.inSlot? slot with
  | none => simp [queueIn_of_free hs] at hq
  | some entry =>
    rw [queueIn_of_inSlot? hs] at hq
    obtain ⟨hf, hslot⟩ := h.inSlot?_iff.1 hs
    rw [h.key_of_mem_queue entry.1 entry.2 hf queued hq, ← hslot]
    rfl

/-- A new session brings its queue. -/
theorem WF.queueIn_add (h : table.WF) (hadd : (table.add id session).WF)
    (hfree : table.find? id = none) (slot : Slot) :
    (table.add id session).queueIn slot =
      if slot = session.slot then session.queue else table.queueIn slot := by
  unfold queueIn
  rw [h.inSlot?_add hadd hfree]
  split <;> rfl

/-- A session that leaves takes its queue along. -/
theorem WF.queueIn_remove (h : table.WF) (hf : table.find? id = some session) (slot : Slot) :
    (table.remove id session).queueIn slot =
      if slot = session.slot then [] else table.queueIn slot := by
  unfold queueIn
  rw [h.inSlot?_remove hf]
  split <;> rfl

/-- A change of phase leaves all queues. -/
theorem queueIn_setPhase (table : SessionTable) (id : SessionId) (phase : Phase) (slot : Slot) :
    (table.setPhase id phase).queueIn slot = table.queueIn slot := by
  unfold queueIn setPhase
  rw [inSlot?_modify]
  cases table.inSlot? slot with
  | none => rfl
  | some entry =>
    simp only [Option.map_some, Option.getD_some]
    split <;> rfl

/-- A trigger is queued at the end, in one slot only. -/
theorem WF.queueIn_enqueue (h : table.WF) (hf : table.find? id = some session)
    (queued : QueuedTrigger) (slot : Slot) :
    (table.enqueue id queued).queueIn slot =
      if slot = session.slot then table.queueIn slot ++ [queued] else table.queueIn slot := by
  have hmodify : (table.enqueue id queued).inSlot? slot = _ := inSlot?_modify _ _ _ _
  unfold queueIn
  rw [hmodify]
  by_cases hslot : slot = session.slot
  · rw [hslot, h.inSlot?_iff.2 ⟨hf, rfl⟩]
    simp
  · cases hs : table.inSlot? slot with
    | none => simp [hslot]
    | some entry =>
      obtain ⟨other, found⟩ := entry
      have hne : other ≠ id := by
        rintro rfl
        obtain ⟨ho, hos⟩ := h.inSlot?_iff.1 hs
        rw [hf] at ho
        cases ho
        exact hslot hos.symm
      simp [hslot, hne]

end SessionTable
end Encounter
