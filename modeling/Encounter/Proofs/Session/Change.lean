import Mathlib.Logic.Relation
import Encounter.Proofs.Session.Lookup

/-!
# How the table of sessions changes

Whatever clients ask for and tasks report, the table changes in six ways only. Each way carries the
condition under which it is taken, so an invariant of the table needs one case per way. Here it is
that index and sessions fit together; `Encounter.Proofs.Session.Dialogue` does the same for open
dialogues.
-/

namespace Encounter
namespace SessionTable

/-- One change of the table of sessions. -/
inductive Change : SessionTable → SessionTable → Prop where
  /-- A session starts in a free slot, under the next number. -/
  | opened {table : SessionTable} {player : PlayerId} {trigger : Trigger}
      (free : table.inSlot? ⟨player, trigger.key⟩ = none) :
      Change table (table.allocate.add table.next ⟨player, trigger, .running, []⟩)
  /-- A trigger takes the next number and waits behind the session of its slot. -/
  | queued {table : SessionTable} {player : PlayerId} {trigger : Trigger} {id : SessionId}
      {session : Session} (taken : table.inSlot? ⟨player, trigger.key⟩ = some (id, session)) :
      Change table (table.allocate.enqueue id ⟨table.next, trigger⟩)
  /-- A session shows a prompt while no other dialogue of its player is open. -/
  | suspended {table : SessionTable} {id : SessionId} {session : Session} {prompt : Prompt}
      {resume : prompt.kind.Answer → Script Unit} (found : table.find? id = some session)
      (alone : table.suspendedOf? session.player = none) :
      Change table (table.setPhase id (.suspended prompt resume))
  /-- A session goes on. -/
  | resumed {table : SessionTable} {id : SessionId} : Change table (table.setPhase id .running)
  /-- A session ends, and what waits behind it is dropped. -/
  | removed {table : SessionTable} {id : SessionId} {session : Session}
      (found : table.find? id = some session) : Change table (table.remove id session)
  /-- A session ends, and the first trigger behind it starts with the others behind it. -/
  | handedOver {table : SessionTable} {id : SessionId} {session : Session} {first : QueuedTrigger}
      {rest : List QueuedTrigger} (found : table.find? id = some session)
      (queue : session.queue = first :: rest) :
      Change table ((table.remove id session).add first.id
        ⟨session.player, first.trigger, .running, rest⟩)

/-- Any number of changes. -/
abbrev Changes : SessionTable → SessionTable → Prop := Relation.ReflTransGen Change

theorem wf_empty : empty.WF where
  bySlot_of_find? id session h := by simp at h
  find?_of_bySlot slot id h := by simp [empty] at h
  key_of_mem_queue id session h := by simp at h
  nodup := List.nodup_nil
  lt_next id h := absurd h List.not_mem_nil

/-- The number that is given away next is free. -/
theorem WF.next_notMem {table : SessionTable} (h : table.WF) : table.next ∉ table.numbers := by
  intro hm
  exact Nat.lt_irrefl _ (h.lt_next _ hm)

/-- Giving away a number keeps the table well-formed. -/
theorem WF.allocate {table : SessionTable} (h : table.WF) : table.allocate.WF where
  bySlot_of_find? := h.bySlot_of_find?
  find?_of_bySlot := h.find?_of_bySlot
  key_of_mem_queue := h.key_of_mem_queue
  nodup := h.nodup
  lt_next id hid := Nat.lt_succ_of_lt (h.lt_next id hid)

/-- A session with fresh numbers may enter a free slot. -/
theorem WF.add {table : SessionTable} (h : table.WF) {id : SessionId} {session : Session}
    (hslot : table.bySlot.find? session.slot = none)
    (hkeys : ∀ queued ∈ session.queue, queued.trigger.key = session.trigger.key)
    (hnodup : (block id session ++ table.numbers).Nodup)
    (hlt : ∀ n ∈ block id session, n.val < table.next.val) : (table.add id session).WF := by
  have hfree : table.find? id = none := by
    cases hf : table.find? id with
    | none => rfl
    | some other =>
      have hd := (List.nodup_append.1 hnodup).2.2 id List.mem_cons_self id (mem_numbers_of_find? hf)
      exact absurd rfl hd
  have hperm := perm_numbers_add session hfree
  refine ⟨?_, ?_, ?_, hperm.nodup_iff.2 hnodup, ?_⟩
  · intro other found hf
    rw [find?_add] at hf
    show (table.bySlot.insert session.slot id).find? found.slot = some other
    rw [Table.find?_insert]
    by_cases ho : other = id
    · rw [if_pos ho] at hf
      cases hf
      rw [if_pos rfl, ho]
    · rw [if_neg ho] at hf
      have hs := h.bySlot_of_find? other found hf
      have hne : found.slot ≠ session.slot := by
        intro he
        rw [he, hslot] at hs
        cases hs
      rw [if_neg hne, hs]
  · intro slot other hs
    change (table.bySlot.insert session.slot id).find? slot = some other at hs
    rw [Table.find?_insert] at hs
    by_cases he : slot = session.slot
    · rw [if_pos he] at hs
      cases hs
      exact ⟨session, by rw [find?_add, if_pos rfl], he.symm⟩
    · rw [if_neg he] at hs
      obtain ⟨found, hf, hfs⟩ := h.find?_of_bySlot slot other hs
      refine ⟨found, ?_, hfs⟩
      rw [find?_add, if_neg, hf]
      rintro rfl
      rw [hfree] at hf
      cases hf
  · intro other found hf
    rw [find?_add] at hf
    by_cases ho : other = id
    · rw [if_pos ho] at hf
      cases hf
      exact hkeys
    · rw [if_neg ho] at hf
      exact h.key_of_mem_queue other found hf
  · intro n hn
    rcases List.mem_append.1 (hperm.mem_iff.1 hn) with hn | hn
    · exact hlt n hn
    · exact h.lt_next n hn

/-- Taking a session out frees its slot. -/
private theorem WF.bySlot_remove {table : SessionTable} (h : table.WF) {id : SessionId}
    {session : Session} (hf : table.find? id = some session) (slot : Slot) :
    (table.remove id session).bySlot.find? slot =
      if slot = session.slot then none else table.bySlot.find? slot := by
  unfold remove
  rw [if_pos (h.bySlot_of_find? id session hf), Table.find?_erase]

/-- A session may leave. -/
theorem WF.remove {table : SessionTable} (h : table.WF) {id : SessionId} {session : Session}
    (hf : table.find? id = some session) : (table.remove id session).WF := by
  have hperm := perm_numbers_remove hf
  refine ⟨?_, ?_, ?_, ?_, ?_⟩
  · intro other found ho
    rw [find?_remove] at ho
    split at ho
    · cases ho
    · next hne =>
      have hs := h.bySlot_of_find? other found ho
      rw [h.bySlot_remove hf, if_neg, hs]
      intro he
      rw [he, h.bySlot_of_find? id session hf] at hs
      exact hne (Option.some.inj hs).symm
  · intro slot other hs
    rw [h.bySlot_remove hf] at hs
    split at hs
    · cases hs
    · next hne =>
      obtain ⟨found, ho, hfs⟩ := h.find?_of_bySlot slot other hs
      refine ⟨found, ?_, hfs⟩
      rw [find?_remove, if_neg, ho]
      rintro rfl
      rw [hf] at ho
      cases ho
      exact hne hfs.symm
  · intro other found ho
    rw [find?_remove] at ho
    split at ho
    · cases ho
    · exact h.key_of_mem_queue other found ho
  · exact (List.nodup_append.1 (hperm.nodup_iff.1 h.nodup)).2.1
  · intro n hn
    exact h.lt_next n (hperm.mem_iff.2 (List.mem_append_right _ hn))

/-- A session may change in place as long as it stays in its slot, its queue holds triggers of its
key and all numbers stay distinct and given away. -/
theorem WF.modify {table : SessionTable} (h : table.WF) {id : SessionId} {f : Session → Session}
    (hslot : ∀ session, (f session).slot = session.slot)
    (hkeys : ∀ session, table.find? id = some session →
      ∀ queued ∈ (f session).queue, queued.trigger.key = (f session).trigger.key)
    (hnodup : ({ table with sessions := table.sessions.modify id f } : SessionTable).numbers.Nodup)
    (hlt : ∀ n ∈ ({ table with sessions := table.sessions.modify id f } : SessionTable).numbers,
      n.val < table.next.val) :
    ({ table with sessions := table.sessions.modify id f } : SessionTable).WF := by
  have hfind : ∀ other, (table.sessions.modify id f).find? other =
      if other = id then (table.find? id).map f else table.find? other :=
    fun other => Table.find?_modify _ _ _ _
  refine ⟨?_, ?_, ?_, hnodup, hlt⟩
  · intro other found hf
    change (table.sessions.modify id f).find? other = some found at hf
    rw [hfind] at hf
    split at hf
    · next he =>
      subst he
      obtain ⟨old, ho, rfl⟩ := Option.map_eq_some_iff.1 hf
      rw [hslot]
      exact h.bySlot_of_find? other old ho
    · exact h.bySlot_of_find? other found hf
  · intro slot other hs
    obtain ⟨old, ho, hos⟩ := h.find?_of_bySlot slot other hs
    show ∃ found, (table.sessions.modify id f).find? other = some found ∧ found.slot = slot
    rw [hfind]
    split
    · next he =>
      subst he
      refine ⟨f old, ?_, (hslot old).trans hos⟩
      rw [ho, Option.map_some]
    · exact ⟨old, ho, hos⟩
  · intro other found hf
    change (table.sessions.modify id f).find? other = some found at hf
    rw [hfind] at hf
    split at hf
    · next he =>
      subst he
      obtain ⟨old, ho, rfl⟩ := Option.map_eq_some_iff.1 hf
      exact hkeys old ho
    · exact h.key_of_mem_queue other found hf

/-- A session may change its phase. -/
theorem WF.setPhase {table : SessionTable} (h : table.WF) (id : SessionId) (phase : Phase) :
    (table.setPhase id phase).WF := by
  have hperm := perm_numbers_setPhase table id phase
  apply h.modify
  · exact fun session => rfl
  · exact fun session hf => h.key_of_mem_queue id session hf
  · exact hperm.nodup_iff.2 h.nodup
  · exact fun n hn => h.lt_next n (hperm.mem_iff.1 hn)

/-- A trigger of the session's key, with a fresh number, may wait behind it. -/
theorem WF.enqueue {table : SessionTable} (h : table.WF) {id : SessionId} {session : Session}
    {queued : QueuedTrigger} (hf : table.find? id = some session)
    (hkey : queued.trigger.key = session.trigger.key) (hnew : queued.id ∉ table.numbers)
    (hlt : queued.id.val < table.next.val) : (table.enqueue id queued).WF := by
  have hperm := perm_numbers_enqueue queued hf
  apply h.modify
  · exact fun session => rfl
  · intro found hfound waiting hw
    rw [hf] at hfound
    cases hfound
    rcases List.mem_append.1 hw with hw | hw
    · exact h.key_of_mem_queue id session hf waiting hw
    · rw [List.mem_singleton.1 hw]
      exact hkey
  · exact hperm.nodup_iff.2 (List.nodup_cons.2 ⟨hnew, h.nodup⟩)
  · intro n hn
    rcases List.mem_cons.1 (hperm.mem_iff.1 hn) with rfl | hn
    · exact hlt
    · exact h.lt_next n hn

/-- Every change keeps index and sessions together. -/
theorem Change.wf {table next : SessionTable} (hc : Change table next) (h : table.WF) :
    next.WF := by
  cases hc with
  | @opened player trigger free =>
    apply h.allocate.add
    · exact h.bySlot_eq_none free
    · exact fun queued hq => absurd hq List.not_mem_nil
    · exact List.nodup_cons.2 ⟨h.next_notMem, h.nodup⟩
    · intro n hn
      rw [List.mem_singleton.1 hn]
      exact Nat.lt_succ_self _
  | @queued player trigger id session taken =>
    obtain ⟨hs, hf⟩ := inSlot?_eq_some_iff.1 taken
    obtain ⟨found, hfound, hslot⟩ := h.find?_of_bySlot _ _ hs
    rw [hf] at hfound
    cases hfound
    apply h.allocate.enqueue hf
    · exact (congrArg Slot.key hslot).symm
    · exact h.next_notMem
    · exact Nat.lt_succ_self _
  | suspended found alone => exact h.setPhase _ _
  | resumed => exact h.setPhase _ _
  | removed found => exact h.remove found
  | @handedOver id session first rest found queue =>
    -- The block of the new session is the rest of the block that its predecessor leaves.
    have hkeys : ∀ queued ∈ first :: rest, queued.trigger.key = session.trigger.key := by
      intro queued hq
      exact h.key_of_mem_queue id session found queued (queue ▸ hq)
    have hfirst : first.trigger.key = session.trigger.key := hkeys first List.mem_cons_self
    have hnumbers := perm_numbers_remove found
    have hblock : block id session = id :: first.id :: rest.map QueuedTrigger.id := by
      rw [block, queue, List.map_cons]
    rw [hblock] at hnumbers
    apply (h.remove found).add
    · rw [h.bySlot_remove found, if_pos]
      exact congrArg (Slot.mk session.player) hfirst
    · intro queued hq
      exact (hkeys queued (List.mem_cons_of_mem _ hq)).trans hfirst.symm
    · exact (List.nodup_cons.1 (hnumbers.nodup_iff.1 h.nodup)).2
    · intro n hn
      apply h.lt_next n
      apply hnumbers.mem_iff.2
      exact List.mem_cons_of_mem _ (List.mem_append_left _ hn)

/-- Any number of changes keep index and sessions together. -/
theorem Changes.wf {table next : SessionTable} (hc : Changes table next) (h : table.WF) :
    next.WF := by
  induction hc with
  | refl => exact h
  | tail _ step ih => exact step.wf ih

end SessionTable
end Encounter
