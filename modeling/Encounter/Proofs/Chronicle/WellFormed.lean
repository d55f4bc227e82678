import Encounter.Proofs.Chronicle.Move
import Encounter.Proofs.Session.Called

/-!
# Tasks and notices fit the sessions

A task belongs to a running session and acts in its name; no notice about that session waits. A
session about which a notice waits runs as well, and there is only this one notice. Notices about
sessions that are gone may wait too, but their numbers had their turn, so they reach nobody.
-/

namespace Encounter

/-- The session that a notice is about. -/
def Notice.session : Notice → SessionId
  | suspended id _ _ => id
  | finished id _ => id

namespace Engine

/-- The number of notices about a session that wait. -/
def pending (engine : Engine) (id : SessionId) : Nat :=
  engine.notices.countP fun notice => notice.session = id

/-- What the engine keeps under a number fits together. -/
structure Fits (engine : Engine) (id : SessionId) : Prop where
  /-- A task acts for a running session, about which no notice waits. -/
  task : ∀ task, engine.tasks.find? id = some task →
    ∃ session, engine.table.find? id = some session ∧ session.phase = .running ∧
      task.origin = ⟨session.player, session.trigger⟩ ∧ engine.pending id = 0
  /-- A notice about a session is the only one, and the session runs. -/
  notice : ∀ session, engine.table.find? id = some session → 0 < engine.pending id →
    session.phase = .running ∧ engine.pending id = 1

/-- The state of the engine fits together. -/
structure WF (engine : Engine) : Prop where
  table : engine.table.WF
  fits : ∀ id, engine.Fits id
  called : ∀ id, 0 < engine.pending id → engine.table.Called id

/-- Handling a notice takes it from those that wait. -/
theorem pending_cons {engine : Engine} {notice : Notice} {rest : List Notice}
    (h : engine.notices = notice :: rest) (id : SessionId) :
    engine.pending id =
      pending { engine with notices := rest } id + if notice.session = id then 1 else 0 := by
  unfold pending
  rw [h, List.countP_cons]
  simp only [decide_eq_true_eq]

theorem pending_cancel (engine : Engine) (id : SessionId) (reason : CancelReason)
    (other : SessionId) : (engine.cancel id reason).pending other = engine.pending other := by
  unfold pending
  rw [notices_cancel]

/-- Nothing changes under a number where session, task and notices stay. -/
theorem Fits.congr {engine next : Engine} {id : SessionId} (h : engine.Fits id)
    (hsession : next.table.find? id = engine.table.find? id)
    (htask : next.tasks.find? id = engine.tasks.find? id)
    (hpending : next.pending id = engine.pending id) : next.Fits id := by
  constructor
  · intro task ht
    rw [htask] at ht
    rw [hsession, hpending]
    exact h.task task ht
  · intro session hf hp
    rw [hsession] at hf
    rw [hpending] at hp ⊢
    exact h.notice session hf hp

/-- A number without session and task has nothing that could be amiss. -/
theorem Fits.of_none {engine : Engine} {id : SessionId} (hsession : engine.table.find? id = none)
    (htask : engine.tasks.find? id = none) : engine.Fits id := by
  constructor
  · intro task ht
    rw [htask] at ht
    cases ht
  · intro session hf
    rw [hsession] at hf
    cases hf

/-- A session that has just got its task. -/
theorem Fits.of_task {engine : Engine} {id : SessionId} {session : Session} {task : Task}
    (hsession : engine.table.find? id = some session) (htask : engine.tasks.find? id = some task)
    (hphase : session.phase = .running) (horigin : task.origin = ⟨session.player, session.trigger⟩)
    (hpending : engine.pending id = 0) : engine.Fits id := by
  constructor
  · intro other ht
    rw [htask] at ht
    cases ht
    exact ⟨session, hsession, hphase, horigin, hpending⟩
  · intro other hf hp
    omega

/-- A session without a task, about which at most one notice waits. -/
private theorem Fits.of_session {engine : Engine} {id : SessionId} {session : Session}
    (hsession : engine.table.find? id = some session) (htask : engine.tasks.find? id = none)
    (hpending : 0 < engine.pending id → session.phase = .running ∧ engine.pending id = 1) :
    engine.Fits id := by
  constructor
  · intro task ht
    rw [htask] at ht
    cases ht
  · intro other hf
    rw [hsession] at hf
    cases hf
    exact hpending

/-- A suspended session has no task and no notice. -/
theorem Fits.of_suspended {engine : Engine} {id : SessionId} (h : engine.Fits id)
    {session : Session} (hf : engine.table.find? id = some session)
    (hs : session.isSuspended = true) :
    engine.tasks.find? id = none ∧ engine.pending id = 0 := by
  have hphase : session.phase ≠ .running := by
    intro hp
    rw [Session.isSuspended, hp] at hs
    cases hs
  constructor
  · cases ht : engine.tasks.find? id with
    | none => rfl
    | some task =>
      obtain ⟨found, hfound, hp, -⟩ := h.task task ht
      rw [hf] at hfound
      cases hfound
      exact absurd hp hphase
  · rcases Nat.eq_zero_or_pos (engine.pending id) with hzero | hpos
    · exact hzero
    · exact absurd (h.notice session hf hpos).1 hphase

/-- A session about which a notice waits has no task. -/
private theorem Fits.task_eq_none {engine : Engine} {id : SessionId} (h : engine.Fits id)
    (hp : 0 < engine.pending id) : engine.tasks.find? id = none := by
  cases ht : engine.tasks.find? id with
  | none => rfl
  | some task =>
    obtain ⟨-, -, -, -, hzero⟩ := h.task task ht
    omega

/-- Without a session there is no task. -/
theorem Fits.task_eq_none_of_gone {engine : Engine} {id : SessionId} (h : engine.Fits id)
    (hgone : engine.table.find? id = none) : engine.tasks.find? id = none := by
  rw [Option.eq_none_iff_forall_ne_some]
  intro task ht
  obtain ⟨found, hfound, -⟩ := h.task task ht
  rw [hgone] at hfound
  cases hfound

/-- A session that ends by itself is gone. Of the numbers that had their turn others stay as they are,
also if a trigger takes its turn. -/
theorem find?_finish {engine : Engine} {other : SessionId} (hcalled : engine.table.Called other)
    (id : SessionId) (result : Except ScriptError Unit) :
    (engine.finish id result).table.find? other =
      if other = id then none else engine.table.find? other := by
  cases hf : engine.table.find? id with
  | none =>
    rw [finish_of_find?_eq_none hf]
    split
    · next he => rw [he, hf]
    · rfl
  | some session =>
    obtain ⟨first, rest, script, view, hqueue, -, -, he⟩ | ⟨-, he⟩ := finish_cases hf result
    · have hne : other ≠ first.id := by
        rintro rfl
        exact SessionTable.not_called_of_queue_eq_cons hf hqueue hcalled
      rw [he, table_start, table_conclude, SessionTable.find?_add, if_neg hne,
        SessionTable.find?_remove]
    · rw [he, table_conclude, SessionTable.find?_remove]

/-- A number that had no turn has no notice. -/
theorem WF.pending_eq_zero {engine : Engine} (h : engine.WF) {id : SessionId}
    (hc : ¬ engine.table.Called id) : engine.pending id = 0 := by
  rcases Nat.eq_zero_or_pos (engine.pending id) with hzero | hpos
  · exact hzero
  · exact absurd (h.called id hpos) hc

/-- A session starts with its task. -/
private theorem fits_start {engine : Engine} {id : SessionId}
    (h : ∀ other, other ≠ id → engine.Fits other)
    (hpending : engine.pending id = 0) (view : PlayerView) (trigger : Trigger)
    (script : NamedScript) (queue : List QueuedTrigger) (other : SessionId) :
    (engine.start id view trigger script queue).Fits other := by
  by_cases ho : other = id
  · subst ho
    apply Fits.of_task
    · rw [table_start, SessionTable.find?_add, if_pos rfl]
    · exact Table.find?_insert_self _ _ _
    · rfl
    · rfl
    · exact hpending
  · apply (h other ho).congr
    · rw [table_start, SessionTable.find?_add, if_neg ho]
    · exact (Table.find?_insert _ _ _ _).trans (if_neg ho)
    · rfl

/-- Queueing a trigger leaves task and phase of its session. -/
theorem Fits.enqueue {engine : Engine} {other : SessionId} (h : engine.Fits other) (id : SessionId)
    (trigger : Trigger) : (engine.enqueue id trigger).Fits other := by
  have hfind : (engine.enqueue id trigger).table.find? other = _ :=
    engine.table.allocate.find?_enqueue id other ⟨engine.table.next, trigger⟩
  by_cases ho : other = id
  · subst ho
    rw [if_pos rfl, SessionTable.find?_allocate] at hfind
    constructor
    · intro task ht
      obtain ⟨session, hf, hphase, horigin, hpending⟩ := h.task task ht
      rw [hf] at hfind
      exact ⟨_, hfind, hphase, horigin, hpending⟩
    · intro session hf hp
      rw [hfind] at hf
      obtain ⟨old, hold, rfl⟩ := Option.map_eq_some_iff.1 hf
      exact h.notice old hold hp
  · rw [if_neg ho] at hfind
    exact h.congr hfind rfl rfl

/-- A session that goes on gets its task. -/
private theorem fits_resume {engine : Engine} (h : ∀ other, engine.Fits other) {id : SessionId}
    {session : Session} (hf : engine.table.find? id = some session)
    (hs : session.isSuspended = true) (script : Script Unit) (other : SessionId) :
    (engine.resume id session script).Fits other := by
  have hfind : (engine.resume id session script).table.find? other = _ :=
    engine.table.find?_setPhase id other .running
  by_cases ho : other = id
  · subst ho
    rw [if_pos rfl, hf] at hfind
    apply Fits.of_task hfind
    · exact Table.find?_insert_self _ _ _
    · rfl
    · rfl
    · exact ((h other).of_suspended hf hs).2
  · rw [if_neg ho] at hfind
    exact (h other).congr hfind ((Table.find?_insert _ _ _ _).trans (if_neg ho)) rfl

/-- Cutting off a session takes its task as well. -/
theorem Fits.cancel {engine : Engine} {other : SessionId} (h : engine.Fits other) (id : SessionId)
    (reason : CancelReason) : (engine.cancel id reason).Fits other := by
  cases hf : engine.table.find? id with
  | none =>
    rw [cancel_of_find?_eq_none hf]
    exact h
  | some session =>
    have hfind : (engine.cancel id reason).table.find? other = _ :=
      (congrArg (SessionTable.find? · other) (table_cancel hf reason)).trans
        (engine.table.find?_remove id other session)
    have htask : (engine.cancel id reason).tasks.find? other = _ :=
      (congrArg (Table.find? · other) (tasks_cancel hf reason)).trans
        (engine.tasks.find?_erase id other)
    by_cases ho : other = id
    · rw [if_pos ho] at hfind htask
      exact Fits.of_none hfind htask
    · rw [if_neg ho] at hfind htask
      exact h.congr hfind htask (pending_cancel engine id reason other)

/-- Dropping a notice leaves at most the others. -/
theorem Fits.drop {engine : Engine} {other : SessionId} (h : engine.Fits other) {notice : Notice}
    {rest : List Notice} (hn : engine.notices = notice :: rest) :
    Fits { engine with notices := rest } other := by
  have hp := pending_cons hn other
  constructor
  · intro task ht
    obtain ⟨session, hf, hphase, horigin, hzero⟩ := h.task task ht
    exact ⟨session, hf, hphase, horigin, by omega⟩
  · intro session hf hpos
    obtain ⟨hphase, hone⟩ := h.notice session hf (by omega)
    exact ⟨hphase, by omega⟩

/-- A session that shows its prompt has neither task nor notice. -/
private theorem fits_await {engine : Engine} (h : ∀ other, engine.Fits other) {id : SessionId}
    {session : Session} {prompt : Prompt} {next : prompt.kind.Answer → Script Unit}
    {rest : List Notice} (hn : engine.notices = .suspended id prompt next :: rest)
    (hf : engine.table.find? id = some session) (other : SessionId) :
    (({ engine with notices := rest } : Engine).await id session prompt next).Fits other := by
  have hfind : (({ engine with notices := rest } : Engine).await id session prompt next).table.find?
      other = _ := engine.table.find?_setPhase id other (.suspended prompt next)
  have hp := pending_cons hn other
  by_cases ho : other = id
  · subst ho
    simp only [Notice.session, if_true] at hp
    rw [if_pos rfl, hf] at hfind
    have hone := ((h other).notice session hf (by omega)).2
    apply Fits.of_session hfind
    · exact (h other).task_eq_none (by omega)
    · intro hpos
      change 0 < pending { engine with notices := rest } other at hpos
      omega
  · rw [if_neg ho] at hfind
    exact ((h other).drop hn).congr hfind rfl rfl

/-- A session that ends has no task to leave behind. -/
private theorem fits_conclude {engine : Engine} (h : ∀ other, engine.Fits other) {id : SessionId}
    {session : Session} {result : Except ScriptError Unit} {rest : List Notice}
    (hn : engine.notices = .finished id result :: rest) (outcome : Outcome) (other : SessionId) :
    (({ engine with notices := rest } : Engine).conclude id session outcome).Fits other := by
  have hfind : (({ engine with notices := rest } : Engine).conclude id session outcome).table.find?
      other = _ := engine.table.find?_remove id other session
  have hp := pending_cons hn other
  by_cases ho : other = id
  · subst ho
    simp only [Notice.session, if_true] at hp
    rw [if_pos rfl] at hfind
    exact Fits.of_none hfind ((h other).task_eq_none (by omega))
  · rw [if_neg ho] at hfind
    exact ((h other).drop hn).congr hfind rfl rfl

/-- A task that runs either leaves one notice and is gone, or stays. -/
theorem poll_cases (engine : Engine) (id : SessionId) (task : Task) :
    (∃ notice, notice.session = id ∧ (engine.poll id task).tasks = engine.tasks.erase id ∧
      (engine.poll id task).notices = engine.notices ++ [notice]) ∨
    ∃ script, (engine.poll id task).tasks = engine.tasks.insert id ⟨task.origin, script, true⟩ ∧
      (engine.poll id task).notices = engine.notices := by
  cases h : task.script.advance with
  | mk effects stop =>
    cases stop with
    | ended result =>
      rw [poll_of_ended h]
      exact .inl ⟨.finished id result, rfl, rfl, rfl⟩
    | asking prompt next =>
      rw [poll_of_asking h]
      exact .inl ⟨.suspended id prompt next, rfl, rfl, rfl⟩
    | parked next =>
      rw [poll_of_parked h]
      exact .inr ⟨next, rfl, rfl⟩

/-- One notice more waits about the session of a notice that is sent. -/
theorem pending_append {engine next : Engine} {notice : Notice}
    (h : next.notices = engine.notices ++ [notice]) (id : SessionId) :
    next.pending id = engine.pending id + if notice.session = id then 1 else 0 := by
  unfold pending
  rw [h, List.countP_append, List.countP_singleton]
  simp only [decide_eq_true_eq]

/-- What stands in for a task of a session is the task of that session again. -/
theorem fits_insert {engine next : Engine} (h : ∀ other, engine.Fits other) {id : SessionId}
    {task kept : Task} (ht : engine.tasks.find? id = some task) (htable : next.table = engine.table)
    (htasks : next.tasks = engine.tasks.insert id kept) (hnotices : next.notices = engine.notices)
    (horigin : kept.origin = task.origin) (other : SessionId) : next.Fits other := by
  have hpending : next.pending other = engine.pending other := by
    unfold pending
    rw [hnotices]
  have hfind : next.table.find? other = engine.table.find? other := by rw [htable]
  by_cases ho : other = id
  · subst ho
    obtain ⟨session, hf, hphase, hsame, hzero⟩ := (h other).task task ht
    have hkept : next.tasks.find? other = some kept := by rw [htasks, Table.find?_insert_self]
    exact Fits.of_task (hfind.trans hf) hkept hphase (horigin.trans hsame) (hpending.trans hzero)
  · have hkept : next.tasks.find? other = engine.tasks.find? other := by
      rw [htasks, Table.find?_insert, if_neg ho]
    exact (h other).congr hfind hkept hpending

/-- A task that runs is replaced by a notice, or stays as the task of its session. -/
private theorem fits_poll {engine : Engine} (h : ∀ other, engine.Fits other) {id : SessionId}
    {task : Task} (ht : engine.tasks.find? id = some task) (other : SessionId) :
    (engine.poll id task).Fits other := by
  obtain ⟨notice, hs, htasks, hnotices⟩ | ⟨script, htasks, hnotices⟩ := engine.poll_cases id task
  · obtain ⟨session, hf, hphase, -, hzero⟩ := (h id).task task ht
    have hfind : (engine.poll id task).table.find? other = engine.table.find? other := by
      rw [table_poll]
    have hp := pending_append hnotices other
    have htask : (engine.poll id task).tasks.find? other = _ :=
      (congrArg (Table.find? · other) htasks).trans (engine.tasks.find?_erase id other)
    by_cases ho : other = id
    · subst ho
      rw [if_pos hs, hzero] at hp
      rw [if_pos rfl] at htask
      exact Fits.of_session (hfind.trans hf) htask fun _ => ⟨hphase, hp⟩
    · rw [if_neg ho] at htask
      rw [hs, if_neg (Ne.symm ho)] at hp
      exact (h other).congr hfind htask hp
  · exact fits_insert h ht (table_poll _ _ _) htasks hnotices rfl other

/-- A task that may go on again stays the task of its session. -/
private theorem fits_unpark {engine : Engine} (h : ∀ other, engine.Fits other) {id : SessionId}
    {task : Task} (ht : engine.tasks.find? id = some task) (other : SessionId) :
    Fits { engine with tasks := engine.tasks.insert id { task with parked := false } } other := by
  apply fits_insert h ht <;> rfl

/-- Every move keeps what the engine has under each number together. -/
theorem Move.fits {engine next : Engine} {notes : List Entry} (hm : Move engine notes next)
    (h : engine.WF) (id : SessionId) : next.Fits id := by
  cases hm with
  | opened free =>
    unfold startNext
    apply fits_start
    · exact fun other _ => (h.fits other).congr rfl rfl rfl
    · exact h.pending_eq_zero engine.table.not_called_next
  | queued taken => exact (h.fits id).enqueue _ _
  | resumed found waiting => exact fits_resume h.fits found waiting _ id
  | cancelled found => exact (h.fits id).cancel _ _
  | dropped notices => exact (h.fits id).drop notices
  | awaited notices found alone => exact fits_await h.fits notices found id
  | @handedOver ended session result rest first others view script notices found queue player =>
    have hqueued : first ∈ session.queue := by
      rw [queue]
      exact List.mem_cons_self
    have hzero := h.pending_eq_zero (SessionTable.not_called_of_mem_queue found hqueued)
    rw [pending_cons notices] at hzero
    apply fits_start
    · exact fun other _ => fits_conclude h.fits notices _ other
    · exact Nat.eq_zero_of_add_eq_zero_right hzero
  | finished notices found => exact fits_conclude h.fits notices _ id
  | polled found => exact fits_poll h.fits found id
  | unparked found => exact fits_unpark h.fits found id
  | edited change => exact (h.fits id).congr rfl rfl rfl
  | closed => exact (h.fits id).congr rfl rfl rfl

/-- A move sends a notice about a session at most, and otherwise only handles some. -/
private theorem Move.pending_cases {engine next : Engine} {notes : List Entry}
    (hm : Move engine notes next) (h : engine.WF) {id : SessionId} (hp : 0 < next.pending id) :
    0 < engine.pending id ∨ ∃ session, engine.table.find? id = some session := by
  cases hm with
  | opened free => exact .inl hp
  | queued taken => exact .inl hp
  | resumed found waiting => exact .inl hp
  | cancelled found =>
    rw [pending_cancel] at hp
    exact .inl hp
  | dropped notices =>
    rw [pending_cons notices]
    exact .inl (Nat.add_pos_left hp _)
  | awaited notices found alone =>
    rw [pending_cons notices]
    exact .inl (Nat.add_pos_left hp _)
  | handedOver notices found queue player =>
    rw [pending_cons notices]
    exact .inl (Nat.add_pos_left hp _)
  | finished notices found =>
    rw [pending_cons notices]
    exact .inl (Nat.add_pos_left hp _)
  | @polled polled task found =>
    obtain ⟨notice, hs, -, hnotices⟩ | ⟨script, -, hnotices⟩ := engine.poll_cases polled task
    · rw [pending_append hnotices, hs] at hp
      split at hp
      · next he =>
        obtain ⟨session, hf, -⟩ := (h.fits polled).task task found
        exact .inr ⟨session, he ▸ hf⟩
      · exact .inl hp
    · unfold pending at hp ⊢
      rw [hnotices] at hp
      exact .inl hp
  | unparked found => exact .inl hp
  | edited change => exact .inl hp
  | closed => exact .inl hp

/-- Every move keeps the state of the engine together. -/
theorem Move.wf {engine next : Engine} {notes : List Entry} (hm : Move engine notes next)
    (h : engine.WF) : next.WF where
  table := hm.changes.wf h.table
  fits := hm.fits h
  called id hp := by
    apply hm.changes.called
    rcases hm.pending_cases h hp with hpos | ⟨session, hf⟩
    · exact h.called id hpos
    · exact h.table.called hf

/-- A new engine has nothing that could be amiss. -/
theorem wf_new (registry : Registry) (world : World) : (new registry world).WF where
  table := SessionTable.wf_empty
  fits _ := Fits.of_none rfl rfl
  called _ hp := absurd hp (Nat.lt_irrefl 0)

/-- Any number of moves keep the state of the engine together. -/
theorem Moves.wf {engine next : Engine} {notes : List Entry} (hm : Moves engine notes next)
    (h : engine.WF) : next.WF := by
  induction hm with
  | refl => exact h
  | head first _ ih => exact ih (first.wf h)

end Engine
end Encounter
