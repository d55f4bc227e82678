import Encounter.Proofs.Engine.Interleaving
import Encounter.Proofs.Session.Called
import Encounter.Proofs.Session.Slot

/-!
# Waiting in line

The triggers that wait in a slot form a line. An act lets a subject join the end of the line of its
slot, takes the front of a line and starts it, or drops a line as a whole; a trigger that starts at
once passes through a line that is empty. So for every slot the line before an act and what the act
admits are, in this order, what the act starts and the line after it, unless the line is dropped
(`Engine.Advances`). A line is dropped when the engine cuts off the session ahead of it, or when
that session ends while the world does not know the player (`Engine.Drops`).
-/

namespace Encounter

/-- The slot of a subject's session. -/
def Subject.slot (subject : Subject) : Slot := ⟨subject.player, subject.trigger.key⟩

/-- Those of the subjects whose sessions belong into that slot. -/
def forSlot (slot : Slot) (subjects : List Subject) : List Subject :=
  subjects.filter fun subject => subject.slot = slot

@[simp] theorem forSlot_nil (slot : Slot) : forSlot slot [] = [] := rfl

@[simp] theorem forSlot_append (slot : Slot) (subjects others : List Subject) :
    forSlot slot (subjects ++ others) = forSlot slot subjects ++ forSlot slot others :=
  List.filter_append _ _

private theorem forSlot_singleton (slot : Slot) (subject : Subject) :
    forSlot slot [subject] = if slot = subject.slot then [subject] else [] := by
  by_cases h : slot = subject.slot <;> simp [forSlot, h, eq_comm]

/-- The subjects whose sessions started, in the order of their starts. -/
def starts (log : List Event) : List Subject :=
  (log.filter fun event => event.happening = .started).map Event.subject

@[simp] theorem starts_append (log events : List Event) :
    starts (log ++ events) = starts log ++ starts events := by
  simp [starts]

namespace Engine

/-- The line of a slot: what waits there, as the subjects of the sessions to come. -/
def line (engine : Engine) (slot : Slot) : List Subject :=
  (engine.table.queueIn slot).map fun queued => ⟨queued.id, slot.player, queued.trigger⟩

/-- The subject that an act admits, if it is an accepted trigger, with the number of the answer. -/
def admits (engine : Engine) : Act → List Subject
  | .command (.trigger player trigger) =>
    match (engine.handle (.trigger player trigger)).2 with
    | .ok (.triggered outcome) => outcome.session?.toList.map fun id => ⟨id, player, trigger⟩
    | _ => []
  | _ => []

/-- The act makes the engine cut that session off. -/
inductive CutsOff (engine : Engine) (id : SessionId) : Act → CancelReason → Prop where
  /-- Its player is gone. -/
  | disconnected {session : Session} (accepting : engine.accepting = true)
      (found : engine.table.find? id = some session) :
      CutsOff engine id (.command (.disconnect session.player)) .disconnected
  /-- It waits for an answer while its player moves to another map. -/
  | mapChanged {session : Session} {map : MapId} (accepting : engine.accepting = true)
      (found : engine.table.suspendedOf? session.player = some (id, session))
      (elsewhere : session.trigger.map ≠ map) :
      CutsOff engine id (.command (.playerMoved session.player map)) .mapChanged
  /-- Its script shows a prompt while another dialogue of its player is open. -/
  | conversationOpen {session : Session} {prompt : Prompt}
      {resume : prompt.kind.Answer → Script Unit} {rest : List Notice}
      (found : engine.table.find? id = some session)
      (busy : (engine.table.suspendedOf? session.player).isSome) :
      CutsOff engine id (.notice (.suspended id prompt resume) rest) .conversationOpen
  /-- The engine is shut down. -/
  | shutdown {session : Session} (accepting : engine.accepting = true)
      (found : engine.table.find? id = some session) :
      CutsOff engine id (.command .shutdown) .shutdown

/-- The act drops the line of that slot. -/
inductive Drops (engine : Engine) (slot : Slot) : Act → Prop where
  /-- The engine cuts off the session ahead. -/
  | cutOff {act : Act} {id : SessionId} {session : Session} {reason : CancelReason}
      (ahead : engine.table.inSlot? slot = some (id, session))
      (cut : engine.CutsOff id act reason) : Drops engine slot act
  /-- The session ahead ends, and the world does not know the player of the one to start. -/
  | unknown {id : SessionId} {session : Session} {result : Except ScriptError Unit}
      {rest : List Notice} (ahead : engine.table.inSlot? slot = some (id, session))
      (gone : engine.world.player? slot.player = none) :
      Drops engine slot (.notice (.finished id result) rest)

/-- What lies between two states of the engine, as seen from the lines. -/
structure Advances (engine next : Engine) (admitted : List Subject) (drops : Slot → Prop) :
    Prop where
  next_eq : next.table.next.val = engine.table.next.val + admitted.length
  numbers : admitted.map (fun subject => subject.session.val) =
    List.range' engine.table.next.val admitted.length
  line : ∃ started, starts next.log = starts engine.log ++ started ∧ ∀ slot,
    engine.line slot ++ forSlot slot admitted = forSlot slot started ++ next.line slot ∨
      drops slot ∧ forSlot slot admitted = [] ∧ forSlot slot started = [] ∧ next.line slot = []

variable {engine next : Engine} {drops : Slot → Prop}

/-- Where nobody is admitted or starts, each line stays or is dropped. -/
private theorem advances_of_quiet (hnext : next.table.next = engine.table.next)
    (hstarts : starts next.log = starts engine.log)
    (hline : ∀ slot, next.line slot = engine.line slot ∨ drops slot ∧ next.line slot = []) :
    Advances engine next [] drops := by
  refine ⟨by simp [hnext], rfl, [], by simp [hstarts], ?_⟩
  intro slot
  rcases hline slot with he | ⟨hd, he⟩
  · simp [he]
  · exact .inr ⟨hd, rfl, rfl, he⟩

/-- Where the table and the starts stay, so do the lines. -/
theorem advances_of_same (htable : next.table = engine.table)
    (hstarts : starts next.log = starts engine.log) : Advances engine next [] drops := by
  apply advances_of_quiet (by rw [htable]) hstarts
  intro slot
  exact .inl (by rw [line, line, htable])

private theorem next_cancel (engine : Engine) (id : SessionId) (reason : CancelReason) :
    (engine.cancel id reason).table.next = engine.table.next := by
  unfold cancel
  split <;> rfl

private theorem starts_cancel (engine : Engine) (id : SessionId) (reason : CancelReason) :
    starts (engine.cancel id reason).log = starts engine.log := by
  unfold cancel
  split
  · rfl
  · simp [conclude, publish, starts]

/-- Cutting off sessions gives away no number and starts nothing. -/
private theorem next_starts_cancelEach (engine : Engine) (ids : List SessionId)
    (reason : CancelReason) :
    (engine.cancelEach ids reason).table.next = engine.table.next ∧
      starts (engine.cancelEach ids reason).log = starts engine.log := by
  induction ids generalizing engine with
  | nil => exact ⟨rfl, rfl⟩
  | cons id ids ih =>
    have hrest := ih (engine.cancel id reason)
    rw [next_cancel, starts_cancel] at hrest
    exact hrest

/-- Cutting off sessions frees their slots. -/
private theorem inSlot?_cancelEach (hwf : engine.table.WF) (ids : List SessionId)
    (reason : CancelReason) (slot : Slot) :
    (engine.cancelEach ids reason).table.inSlot? slot =
      (engine.table.inSlot? slot).filter fun entry => entry.1 ∉ ids := by
  obtain ⟨events, hm⟩ := engine.proceeds_cancelEach ids reason
  have hcut : (engine.cancelEach ids reason).table.WF := hm.changes.wf hwf
  ext ⟨id, session⟩
  rw [hcut.inSlot?_iff, find?_cancelEach, Option.filter_eq_some_iff, hwf.inSlot?_iff]
  by_cases hid : id ∈ ids <;> simp [hid]

/-- Each session that is cut off ends with the reason. -/
private theorem ended_mem_cancelEach {id : SessionId} {session : Session}
    (hf : engine.table.find? id = some session) {ids : List SessionId} (hid : id ∈ ids)
    (reason : CancelReason) :
    ⟨⟨id, session.player, session.trigger⟩, .ended (.cancelled reason)⟩ ∈
      (engine.cancelEach ids reason).log := by
  induction ids generalizing engine with
  | nil => cases hid
  | cons other ids ih =>
    by_cases ho : id = other
    · subst ho
      obtain ⟨events, hm⟩ := (engine.cancel id reason).proceeds_cancelEach ids reason
      show _ ∈ ((engine.cancel id reason).cancelEach ids reason).log
      rw [hm.log, cancel, hf]
      simp [conclude, publish]
    · apply @ih (engine.cancel other reason)
      · rw [find?_cancel, if_neg ho, hf]
      · exact (List.mem_cons.1 hid).resolve_left ho

/-- The session that an act cuts off ends with the reason for it. -/
theorem CutsOff.ended_mem {id : SessionId} {act : Act} {reason : CancelReason}
    (h : engine.CutsOff id act reason) :
    ∃ session, engine.table.find? id = some session ∧
      ⟨⟨id, session.player, session.trigger⟩, .ended (.cancelled reason)⟩ ∈
        (engine.act act).log := by
  cases h with
  | @disconnected session accepting found =>
    refine ⟨session, found, ?_⟩
    rw [act, handle_disconnect accepting]
    exact ended_mem_cancelEach found (SessionTable.mem_idsOf_iff.2 ⟨session, found, rfl⟩) _
  | @mapChanged session map accepting found elsewhere =>
    have hf := (SessionTable.of_suspendedOf?_eq_some found).1
    refine ⟨session, hf, ?_⟩
    rw [act, handle_playerMoved accepting, playerMoved, found]
    dsimp only
    rw [if_neg elsewhere]
    exact ended_mem_cancelEach hf (List.mem_singleton_self id) _
  | @conversationOpen session prompt resume rest found busy =>
    refine ⟨session, found, ?_⟩
    obtain ⟨hnone, -⟩ | ⟨-, he⟩ :=
      @suspend_cases { engine with notices := rest } _ _ found prompt resume
    · rw [hnone] at busy
      cases busy
    · rw [act, receive, he]
      exact @ended_mem_cancelEach { engine with notices := rest } _ _ found _
        (List.mem_singleton_self id) _
  | @shutdown session accepting found =>
    refine ⟨session, found, ?_⟩
    rw [act, handle_shutdown accepting]
    exact ended_mem_cancelEach found (SessionTable.mem_ids_iff.2 ⟨session, found⟩) _

/-- Cutting off sessions drops the lines behind them. -/
theorem advances_cancelEach (hwf : engine.table.WF) (ids : List SessionId) (reason : CancelReason)
    (hdrops : ∀ slot id session, engine.table.inSlot? slot = some (id, session) → id ∈ ids →
      drops slot) : Advances engine (engine.cancelEach ids reason) [] drops := by
  obtain ⟨hnext, hstarts⟩ := engine.next_starts_cancelEach ids reason
  apply advances_of_quiet hnext hstarts
  intro slot
  have hslot := inSlot?_cancelEach hwf ids reason slot
  unfold line SessionTable.queueIn
  rw [hslot]
  cases hs : engine.table.inSlot? slot with
  | none => exact .inl rfl
  | some entry =>
    by_cases hid : entry.1 ∈ ids
    · exact .inr ⟨hdrops slot entry.1 entry.2 hs hid, by simp [Option.filter, hid]⟩
    · exact .inl (by simp [Option.filter, hid])

/-! ## Starting and queueing -/

/-- A session that starts at once passes through an empty line. -/
theorem advances_startNext (hwf : engine.table.WF) {view : PlayerView} {trigger : Trigger}
    (hfree : engine.table.inSlot? ⟨view.id, trigger.key⟩ = none) (script : NamedScript) :
    Advances engine (engine.startNext view trigger script)
      [⟨engine.table.next, view.id, trigger⟩] drops := by
  have hadd := (SessionTable.Change.opened hfree).wf hwf
  have hnew : engine.table.allocate.find? engine.table.next = none := by
    cases hf : engine.table.find? engine.table.next with
    | none => exact hf
    | some session => exact absurd (SessionTable.mem_numbers_of_find? hf) hwf.next_notMem
  refine ⟨rfl, rfl, [⟨engine.table.next, view.id, trigger⟩], starts_append _ _, ?_⟩
  intro slot
  refine .inl ?_
  have hqueue : (engine.startNext view trigger script).table.queueIn slot = _ :=
    hwf.allocate.queueIn_add hadd hnew slot
  rw [forSlot_singleton, line, line, hqueue]
  by_cases hslot : slot = ⟨view.id, trigger.key⟩
  · rw [hslot, SessionTable.queueIn_of_free hfree]
    simp [Session.slot, Subject.slot]
  · simp [Session.slot, Subject.slot, hslot]

/-- A trigger that is queued joins the end of the line. -/
theorem advances_enqueue (hwf : engine.table.WF) {player : PlayerId} {trigger : Trigger}
    {id : SessionId} {session : Session}
    (htaken : engine.table.inSlot? ⟨player, trigger.key⟩ = some (id, session)) :
    Advances engine (engine.enqueue id trigger) [⟨engine.table.next, player, trigger⟩] drops := by
  obtain ⟨hf, hslot⟩ := hwf.inSlot?_iff.1 htaken
  refine ⟨rfl, rfl, [], (List.append_nil _).symm, ?_⟩
  intro slot
  refine .inl ?_
  have hqueue : (engine.enqueue id trigger).table.queueIn slot = _ :=
    hwf.allocate.queueIn_enqueue hf ⟨engine.table.next, trigger⟩ slot
  rw [forSlot_singleton, line, line, hqueue, hslot]
  by_cases he : slot = ⟨player, trigger.key⟩
  · simp [he, Subject.slot]
  · simp [he, Subject.slot]

/-- When a session ends by itself, the front of its line starts. -/
theorem advances_handOver (hwf : engine.table.WF) {id : SessionId} {session : Session}
    {first : QueuedTrigger} {others : List QueuedTrigger} {view : PlayerView}
    (hf : engine.table.find? id = some session) (hqueue : session.queue = first :: others)
    (hview : view.id = session.player) (outcome : Outcome) (script : NamedScript) :
    Advances engine
      ((engine.conclude id session outcome).start first.id view first.trigger script others) []
      drops := by
  have hfirst : first ∈ session.queue := by simp [hqueue]
  have hkey : first.trigger.key = session.trigger.key :=
    hwf.key_of_mem_queue id session hf first hfirst
  have hadd := (SessionTable.Change.handedOver hf hqueue).wf hwf
  have hnew : (engine.table.remove id session).find? first.id = none := by
    rw [SessionTable.find?_remove]
    split
    · rfl
    · cases ho : engine.table.find? first.id with
      | none => rfl
      | some other =>
        exact absurd (hwf.called ho) (SessionTable.not_called_of_mem_queue hf hfirst)
  refine ⟨rfl, rfl, [⟨first.id, view.id, first.trigger⟩], ?_, ?_⟩
  · simp [start, conclude, publish, starts]
  · intro slot
    refine .inl ?_
    rw [forSlot_singleton, line, line, table_start, table_conclude, hview,
      (hwf.remove hf).queueIn_add hadd hnew, hwf.queueIn_remove hf]
    by_cases hslot : slot = session.slot
    · have hold : engine.table.queueIn session.slot = first :: others :=
        (SessionTable.queueIn_of_inSlot? (hwf.inSlot?_iff.2 ⟨hf, rfl⟩)).trans hqueue
      rw [hslot, hold]
      simp [Session.slot, Subject.slot, hkey]
    · have hne : slot ≠ ⟨session.player, session.trigger.key⟩ := hslot
      simp [Session.slot, Subject.slot, hkey, hne]

/-- When a session ends and nothing starts in its place, its line was empty or is dropped. -/
theorem advances_conclude (hwf : engine.table.WF) {id : SessionId} {session : Session}
    (hf : engine.table.find? id = some session) (outcome : Outcome)
    (hdrops : session.queue = [] ∨ drops session.slot) :
    Advances engine (engine.conclude id session outcome) [] drops := by
  have hnext : (engine.conclude id session outcome).table.next = engine.table.next := rfl
  apply advances_of_quiet hnext
  · simp [conclude, publish, starts]
  · intro slot
    rw [line, line, table_conclude, hwf.queueIn_remove hf]
    by_cases hslot : slot = session.slot
    · have hold : engine.table.queueIn session.slot = session.queue :=
        SessionTable.queueIn_of_inSlot? (hwf.inSlot?_iff.2 ⟨hf, rfl⟩)
      rw [hslot, if_pos rfl, hold]
      rcases hdrops with hempty | hd
      · exact .inl (by rw [hempty])
      · exact .inr ⟨hd, rfl⟩
    · exact .inl (by rw [if_neg hslot])

/-- A change of phase leaves the lines. -/
theorem advances_setPhase {id : SessionId} {phase : Phase}
    (htable : next.table = engine.table.setPhase id phase)
    (hstarts : starts next.log = starts engine.log) : Advances engine next [] drops := by
  apply advances_of_quiet (by rw [htable]; rfl) hstarts
  intro slot
  exact .inl (by rw [line, line, htable, SessionTable.queueIn_setPhase])

end Engine
end Encounter
