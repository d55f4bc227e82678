import Encounter.Proofs.Session.Change

/-!
# Numbers that had their turn

A number is given away once; it may wait in a queue before its session starts. After that it never
waits again: so a number whose session is gone names no session ever after, and a late notice about
it cannot reach another session.
-/

namespace Encounter
namespace SessionTable

/-- The number was given away and does not wait in a queue. -/
structure Called (table : SessionTable) (id : SessionId) : Prop where
  lt_next : id.val < table.next.val
  notQueued : ∀ other session, table.find? other = some session →
    ∀ queued ∈ session.queue, queued.id ≠ id

/-- The number that is given away next has not had its turn. -/
theorem not_called_next (table : SessionTable) : ¬ table.Called table.next :=
  fun h => Nat.lt_irrefl _ h.lt_next

/-- A number that waits has not had its turn. -/
theorem not_called_of_mem_queue {table : SessionTable} {id : SessionId} {session : Session}
    (h : table.find? id = some session) {queued : QueuedTrigger} (hq : queued ∈ session.queue) :
    ¬ table.Called queued.id :=
  fun hc => hc.notQueued id session h queued hq rfl

/-- Nor has the first one of a queue. -/
theorem not_called_of_queue_eq_cons {table : SessionTable} {id : SessionId} {session : Session}
    (h : table.find? id = some session) {first : QueuedTrigger} {rest : List QueuedTrigger}
    (hq : session.queue = first :: rest) : ¬ table.Called first.id := by
  apply not_called_of_mem_queue h
  rw [hq]
  exact List.mem_cons_self

/-- A number stands in one block only. -/
theorem WF.eq_of_mem_block {table : SessionTable} (h : table.WF) {n id other : SessionId}
    {session found : Session} (hf : table.find? id = some session) (hn : n ∈ block id session)
    (ho : table.find? other = some found) (hm : n ∈ block other found) : id = other := by
  apply Classical.byContradiction
  intro hne
  have hkept : (table.remove other found).find? id = some session := by
    rw [find?_remove, if_neg hne, hf]
  have hnodup := (perm_numbers_remove ho).nodup_iff.1 h.nodup
  exact (List.nodup_append.1 hnodup).2.2 n hm n (mem_numbers_iff.2 ⟨id, session, hkept, hn⟩) rfl

/-- The number of an active session had its turn. -/
theorem WF.called {table : SessionTable} (h : table.WF) {id : SessionId} {session : Session}
    (hf : table.find? id = some session) : table.Called id where
  lt_next := h.lt_next id (mem_numbers_of_find? hf)
  notQueued other found ho queued hq he := by
    have hm : queued.id ∈ found.queue.map QueuedTrigger.id := List.mem_map_of_mem hq
    rw [he] at hm
    -- The number of a session is not in its own queue.
    have hid := h.eq_of_mem_block hf List.mem_cons_self ho (List.mem_cons_of_mem _ hm)
    rw [hid] at hm
    have hnodup := (perm_numbers_remove ho).nodup_iff.1 h.nodup
    exact (List.nodup_cons.1 (List.nodup_append.1 hnodup).1).1 hm

/-- A number that waits is the number of no session. -/
theorem WF.find?_of_mem_queue {table : SessionTable} (h : table.WF) {id : SessionId}
    {session : Session} (hf : table.find? id = some session) {queued : QueuedTrigger}
    (hq : queued ∈ session.queue) : table.find? queued.id = none := by
  rw [Option.eq_none_iff_forall_ne_some]
  exact fun found hfound => not_called_of_mem_queue hf hq (h.called hfound)

/-- A change of phase leaves all queues. -/
theorem Called.setPhase {table : SessionTable} {id : SessionId} (h : table.Called id)
    (changed : SessionId) (phase : Phase) : (table.setPhase changed phase).Called id := by
  refine ⟨h.lt_next, ?_⟩
  intro other found ho
  rw [find?_setPhase] at ho
  split at ho
  · obtain ⟨old, hold, rfl⟩ := Option.map_eq_some_iff.1 ho
    exact h.notQueued changed old hold
  · exact h.notQueued other found ho

/-- A number that had its turn does not get another one. -/
theorem Change.called {table next : SessionTable} (hc : Change table next) {id : SessionId}
    (h : table.Called id) : next.Called id := by
  obtain ⟨hlt, hqueues⟩ := h
  cases hc with
  | @opened player trigger free =>
    refine ⟨Nat.lt_succ_of_lt hlt, ?_⟩
    intro other found ho
    rw [find?_add] at ho
    split at ho
    · cases ho
      exact fun queued hq => absurd hq List.not_mem_nil
    · exact hqueues other found ho
  | @queued player trigger behind session taken =>
    refine ⟨Nat.lt_succ_of_lt hlt, ?_⟩
    intro other found ho waiting hw
    rw [find?_enqueue] at ho
    split at ho
    · obtain ⟨old, hold, rfl⟩ := Option.map_eq_some_iff.1 ho
      rcases List.mem_append.1 hw with hw | hw
      · exact hqueues behind old hold waiting hw
      · rw [List.mem_singleton.1 hw]
        rintro rfl
        exact Nat.lt_irrefl _ hlt
    · exact hqueues other found ho waiting hw
  | suspended found alone => exact Called.setPhase ⟨hlt, hqueues⟩ _ _
  | resumed => exact Called.setPhase ⟨hlt, hqueues⟩ _ _
  | @removed gone session found =>
    refine ⟨hlt, ?_⟩
    intro other found ho
    rw [find?_remove] at ho
    split at ho
    · cases ho
    · exact hqueues other found ho
  | @handedOver gone session first rest found queue =>
    refine ⟨hlt, ?_⟩
    intro other successor ho queued hq
    rw [find?_add, find?_remove] at ho
    split at ho
    · cases ho
      apply hqueues gone session found
      rw [queue]
      exact List.mem_cons_of_mem _ hq
    · split at ho
      · cases ho
      · exact hqueues other successor ho queued hq

/-- Any number of changes leave the numbers that had their turn. -/
theorem Changes.called {table next : SessionTable} (hc : Changes table next) {id : SessionId}
    (h : table.Called id) : next.Called id := by
  induction hc with
  | refl => exact h
  | tail _ step ih => exact step.called ih

/-- The session of that number, if it is there afterwards, was there before with the same player and
trigger. Its queue is the same too, unless a number was given away in between. -/
def Persists (table next : SessionTable) (id : SessionId) : Prop :=
  ∀ session, next.find? id = some session → ∃ before, table.find? id = some before ∧
    session.player = before.player ∧ session.trigger = before.trigger ∧
    (next.next = table.next → session.queue = before.queue)

/-- Numbers are given away in ascending order. -/
private theorem Change.next_le {table next : SessionTable} (hc : Change table next) :
    table.next.val ≤ next.next.val := by
  cases hc with
  | opened => exact Nat.le_succ _
  | queued => exact Nat.le_succ _
  | suspended | resumed | removed | handedOver => exact Nat.le_refl _

private theorem Changes.next_le {table next : SessionTable} (hc : Changes table next) :
    table.next.val ≤ next.next.val := by
  induction hc with
  | refl => exact Nat.le_refl _
  | tail _ step ih => exact Nat.le_trans ih step.next_le

/-- A change of phase leaves the rest of a session. -/
private theorem persists_setPhase (table : SessionTable) (id changed : SessionId) (phase : Phase) :
    Persists table (table.setPhase changed phase) id := by
  intro session hf
  rw [find?_setPhase] at hf
  split at hf
  · next he =>
    obtain ⟨before, hbefore, rfl⟩ := Option.map_eq_some_iff.1 hf
    exact ⟨before, he ▸ hbefore, rfl, rfl, fun _ => rfl⟩
  · exact ⟨session, hf, rfl, rfl, fun _ => rfl⟩

/-- A session whose number had its turn does not come anew. -/
theorem Change.persists {table next : SessionTable} (hc : Change table next) {id : SessionId}
    (h : table.Called id) : Persists table next id := by
  cases hc with
  | opened free =>
    intro session hf
    rw [find?_add, if_neg] at hf
    · exact ⟨session, hf, rfl, rfl, fun _ => rfl⟩
    · rintro rfl
      exact table.not_called_next h
  | @queued player trigger behind taken =>
    intro session hf
    rw [find?_enqueue] at hf
    split at hf
    · next he =>
      obtain ⟨before, hbefore, rfl⟩ := Option.map_eq_some_iff.1 hf
      refine ⟨before, he ▸ hbefore, rfl, rfl, ?_⟩
      intro hnext
      exact absurd (congrArg SessionId.val hnext) (Nat.succ_ne_self _)
    · exact ⟨session, hf, rfl, rfl, fun _ => rfl⟩
  | suspended found alone => exact table.persists_setPhase id _ _
  | resumed => exact table.persists_setPhase id _ _
  | removed found =>
    intro session hf
    rw [find?_remove] at hf
    split at hf
    · cases hf
    · exact ⟨session, hf, rfl, rfl, fun _ => rfl⟩
  | @handedOver gone session first rest found queue =>
    intro other hf
    rw [find?_add, if_neg, find?_remove] at hf
    · split at hf
      · cases hf
      · exact ⟨other, hf, rfl, rfl, fun _ => rfl⟩
    · rintro rfl
      exact not_called_of_mem_queue found (by simp [queue]) h

/-- So it is after any number of changes: what is there was there before and keeps its player,
trigger and, while no number is given away, its queue. -/
theorem Changes.persists {table next : SessionTable} (hc : Changes table next) {id : SessionId}
    (h : table.Called id) : Persists table next id := by
  induction hc with
  | refl => exact fun session hf => ⟨session, hf, rfl, rfl, fun _ => rfl⟩
  | @tail middle last hc step ih =>
    intro session hf
    obtain ⟨between, hb, hplayer, htrigger, hqueue⟩ :=
      step.persists (Changes.called hc h) session hf
    obtain ⟨before, hbefore, hplayer', htrigger', hqueue'⟩ := ih between hb
    refine ⟨before, hbefore, hplayer.trans hplayer', htrigger.trans htrigger', ?_⟩
    intro hnext
    -- Numbers only grow, so none was given away on the way either.
    have hle := Changes.next_le hc
    have hle' := step.next_le
    rw [hnext] at hle'
    have hsame : middle.next = table.next := congrArg SessionId.mk (Nat.le_antisymm hle' hle)
    exact (hqueue (hnext.trans hsame.symm)).trans (hqueue' hsame)

/-- What is gone stays gone. -/
theorem Changes.find?_eq_none {table next : SessionTable} (hc : Changes table next)
    {id : SessionId} (h : table.Called id) (hgone : table.find? id = none) :
    next.find? id = none := by
  cases hf : next.find? id with
  | none => rfl
  | some session =>
    obtain ⟨before, hbefore, -⟩ := Changes.persists hc h session hf
    rw [hgone] at hbefore
    cases hbefore

end SessionTable
end Encounter
