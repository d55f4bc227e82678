import Encounter.Proofs.Session.Change

/-!
# Open dialogues

A session that waits for an answer is an open dialogue of its player. A player has at most one: only
a prompt opens a dialogue, and it does so while the player has no other.
-/

namespace Encounter
namespace SessionTable

/-- The session of that number is an open dialogue of the player. -/
def Open (table : SessionTable) (player : PlayerId) (id : SessionId) : Prop :=
  ∃ session, table.find? id = some session ∧ session.player = player ∧ session.isSuspended = true

/-- No player has two open dialogues. -/
def OneDialogue (table : SessionTable) : Prop :=
  ∀ player id other, table.Open player id → table.Open player other → id = other

/-- The search for a dialogue finds an open one. -/
private theorem open_of_suspendedOf? {table : SessionTable} {player : PlayerId} {id : SessionId}
    {session : Session} (h : table.suspendedOf? player = some (id, session)) :
    table.Open player id :=
  ⟨session, of_suspendedOf?_eq_some h⟩

/-- The search for a dialogue fails exactly when none is open. -/
theorem suspendedOf?_eq_none_iff_not_open {table : SessionTable} {player : PlayerId} :
    table.suspendedOf? player = none ↔ ∀ id, ¬ table.Open player id := by
  rw [suspendedOf?_eq_none_iff]
  constructor
  · rintro h id ⟨session, hf, hp, hs⟩
    rw [h id session hf hp] at hs
    cases hs
  · intro h id session hf hp
    apply Bool.eq_false_iff.2
    exact fun hs => h id ⟨session, hf, hp, hs⟩

/-- With one dialogue per player, the one that is found is the one that is open. -/
theorem OneDialogue.open_iff {table : SessionTable} (h : table.OneDialogue) {player : PlayerId}
    {id : SessionId} {session : Session} (hs : table.suspendedOf? player = some (id, session))
    (other : SessionId) : table.Open player other ↔ other = id := by
  constructor
  · exact fun ho => h player other id ho (open_of_suspendedOf? hs)
  · rintro rfl
    exact open_of_suspendedOf? hs

/-- With one dialogue per player, an open one is found. -/
theorem OneDialogue.suspendedOf? {table : SessionTable} (h : table.OneDialogue) {id : SessionId}
    {session : Session} (hf : table.find? id = some session) (hs : session.isSuspended = true) :
    table.suspendedOf? session.player = some (id, session) := by
  have hopen : table.Open session.player id := ⟨session, hf, rfl, hs⟩
  cases ho : table.suspendedOf? session.player with
  | none => exact absurd hopen (suspendedOf?_eq_none_iff_not_open.1 ho id)
  | some entry =>
    obtain ⟨other, found⟩ := entry
    have hid : id = other := (h.open_iff ho id).1 hopen
    have hfound := (of_suspendedOf?_eq_some ho).1
    rw [← hid, hf] at hfound
    cases hfound
    rw [hid]

theorem oneDialogue_empty : empty.OneDialogue := by
  rintro player id other ⟨session, h, -⟩
  simp at h

/-- Where no dialogue opens, no second one does. -/
theorem OneDialogue.of_open {table next : SessionTable} (h : table.OneDialogue)
    (hback : ∀ player id, next.Open player id → table.Open player id) : next.OneDialogue := by
  intro player id other hid hother
  exact h player id other (hback player id hid) (hback player other hother)

/-- A running session opens no dialogue. -/
private theorem open_of_open_add {table : SessionTable} {id : SessionId} {session : Session}
    (hrun : session.isSuspended = false) {player : PlayerId} {other : SessionId}
    (ho : (table.add id session).Open player other) : table.Open player other := by
  obtain ⟨found, hf, hp, hs⟩ := ho
  rw [find?_add] at hf
  split at hf
  · cases hf
    rw [hrun] at hs
    cases hs
  · exact ⟨found, hf, hp, hs⟩

/-- A removal opens no dialogue. -/
private theorem open_of_open_remove {table : SessionTable} {id : SessionId} {session : Session}
    {player : PlayerId} {other : SessionId} (ho : (table.remove id session).Open player other) :
    table.Open player other := by
  obtain ⟨found, hf, hp, hs⟩ := ho
  rw [find?_remove] at hf
  split at hf
  · cases hf
  · exact ⟨found, hf, hp, hs⟩

/-- A longer queue opens no dialogue. -/
private theorem open_of_open_enqueue {table : SessionTable} {id : SessionId}
    {queued : QueuedTrigger}
    {player : PlayerId} {other : SessionId} (ho : (table.enqueue id queued).Open player other) :
    table.Open player other := by
  obtain ⟨found, hf, hp, hs⟩ := ho
  rw [find?_enqueue] at hf
  split at hf
  · next he =>
    subst he
    obtain ⟨old, hold, rfl⟩ := Option.map_eq_some_iff.1 hf
    exact ⟨old, hold, hp, hs⟩
  · exact ⟨found, hf, hp, hs⟩

/-- A change of phase concerns one session; the dialogues of other sessions were open before. -/
private theorem open_of_open_setPhase {table : SessionTable} {id : SessionId} {phase : Phase}
    {player : PlayerId} {other : SessionId} (hne : other ≠ id)
    (ho : (table.setPhase id phase).Open player other) : table.Open player other := by
  obtain ⟨found, hf, hp, hs⟩ := ho
  rw [find?_setPhase, if_neg hne] at hf
  exact ⟨found, hf, hp, hs⟩

/-- A session that goes on is no open dialogue. -/
private theorem not_open_setPhase_running (table : SessionTable) (id : SessionId)
    (player : PlayerId) :
    ¬ (table.setPhase id .running).Open player id := by
  rintro ⟨found, hf, -, hs⟩
  rw [find?_setPhase, if_pos rfl] at hf
  obtain ⟨old, -, rfl⟩ := Option.map_eq_some_iff.1 hf
  cases hs

/-- Every change leaves each player at most one dialogue. -/
theorem Change.oneDialogue {table next : SessionTable} (hc : Change table next)
    (h : table.OneDialogue) : next.OneDialogue := by
  cases hc with
  | opened free =>
    apply h.of_open
    intro player id ho
    exact @open_of_open_add table.allocate _ _ rfl _ _ ho
  | queued taken =>
    apply h.of_open
    intro player id ho
    exact @open_of_open_enqueue table.allocate _ _ _ _ ho
  | @suspended id session prompt resume found alone =>
    -- The session at hand is the only dialogue that can be new, and its player had none.
    have hself : ∀ player, (table.setPhase id (.suspended prompt resume)).Open player id →
        player = session.player := by
      rintro player ⟨opened, hf, hp, -⟩
      rw [find?_setPhase, if_pos rfl, found, Option.map_some] at hf
      cases hf
      exact hp.symm
    have hnone := suspendedOf?_eq_none_iff_not_open.1 alone
    intro player first second hfirst hsecond
    by_cases hf : first = id
    · by_cases hs : second = id
      · rw [hf, hs]
      · have hplayer := hself player (hf ▸ hfirst)
        exact absurd (hplayer ▸ open_of_open_setPhase hs hsecond) (hnone second)
    · by_cases hs : second = id
      · have hplayer := hself player (hs ▸ hsecond)
        exact absurd (hplayer ▸ open_of_open_setPhase hf hfirst) (hnone first)
      · exact h player first second (open_of_open_setPhase hf hfirst)
          (open_of_open_setPhase hs hsecond)
  | @resumed id =>
    apply h.of_open
    intro player other ho
    apply open_of_open_setPhase _ ho
    rintro rfl
    exact not_open_setPhase_running table other player ho
  | removed found =>
    apply h.of_open
    exact fun player id ho => open_of_open_remove ho
  | handedOver found queue =>
    apply h.of_open
    exact fun player id ho => open_of_open_remove (open_of_open_add rfl ho)

/-- Any number of changes leave each player at most one dialogue. -/
theorem Changes.oneDialogue {table next : SessionTable} (hc : Changes table next)
    (h : table.OneDialogue) : next.OneDialogue := by
  induction hc with
  | refl => exact h
  | tail _ step ih => exact step.oneDialogue ih

end SessionTable
end Encounter
