import Encounter.Proofs.Cancellation.Silence
import Encounter.Proofs.Conversation.Behind

/-!
# What becomes of a queued trigger

An active session ends in one of two ways: its script comes to an end, or the engine cuts it off
(`Engine.Reachable.ends_cases`). The first trigger that waits behind it starts at once in the first
case, under the number that was promised for it, and is never heard of in the second.
-/

namespace Encounter
namespace Engine

variable {engine : Engine} {act : Act} {id : SessionId} {session : Session}

/-- A trigger ends no session. -/
private theorem find?_trigger_ne_none (hf : engine.table.find? id = some session)
    (player : PlayerId) (trigger : Trigger) :
    (engine.trigger player trigger).1.table.find? id ≠ none := by
  obtain ⟨script, view, -, -, -, -, he⟩ | ⟨other, found, -, -, -, he⟩ | ⟨result, -, he⟩ :=
    engine.trigger_cases player trigger
  · rw [he, startNext, table_start, SessionTable.find?_add, SessionTable.find?_allocate]
    split <;> simp [hf]
  · rw [he, enqueue, SessionTable.find?_enqueue]
    split
    · next heq => simp [← heq, hf]
    · simp [hf]
  · simp [he, hf]

/-- Nor does a reply. -/
private theorem find?_respond_ne_none (hf : engine.table.find? id = some session)
    (player : PlayerId) (reply : Reply) :
    (engine.respond player reply).1.table.find? id ≠ none := by
  obtain ⟨other, found, prompt, resume, -, -, -, he⟩ | ⟨error, he⟩ := engine.respond_cases player reply
  · rw [he, find?_resume]
    split
    · next heq => simp [← heq, hf]
    · simp [hf]
  · simp [he, hf]

/-- Of all commands, those that end a session cut it off. -/
private theorem Reachable.cutsOff_of_command (h : engine.Reachable)
    (hf : engine.table.find? id = some session) {command : Command}
    (hend : (engine.handle command).1.table.find? id = none) :
    ∃ reason, engine.CutsOff id (.command command) reason := by
  have haccepting := h.accepting hf
  have hhits : ∀ reason, command.reason? = some reason → command.Hits session := by
    intro reason hreason
    obtain ⟨ids, hcuts⟩ := exists_cuts haccepting h.oneDialogue hreason
    apply Classical.byContradiction
    intro hmisses
    rw [(hcuts.find?_iff hf).2 hmisses] at hend
    cases hend
  cases command with
  | trigger player trigger =>
    rw [handle_trigger haccepting] at hend
    exact absurd hend (find?_trigger_ne_none hf player trigger)
  | respond player reply =>
    rw [handle_respond haccepting] at hend
    exact absurd hend (find?_respond_ne_none hf player reply)
  | sessions =>
    rw [handle, haccepting] at hend
    rw [show engine.table.find? id = none from hend] at hf
    cases hf
  | disconnect player =>
    obtain rfl : session.player = player := hhits .disconnected rfl
    exact ⟨.disconnected, .disconnected haccepting hf⟩
  | playerMoved player map =>
    obtain ⟨rfl, hwaits, helsewhere⟩ := hhits .mapChanged rfl
    exact ⟨.mapChanged, .mapChanged haccepting (h.oneDialogue.suspendedOf? hf hwaits) helsewhere⟩
  | shutdown => exact ⟨.shutdown, .shutdown haccepting hf⟩

/-- Of all notices, those that end a session are about it: its script has come to an end, or shows a
prompt beside an open dialogue. -/
private theorem Reachable.ends_of_notice (h : engine.Reachable)
    (hf : engine.table.find? id = some session) {notice : Notice} {rest : List Notice}
    (hend : (engine.act (.notice notice rest)).table.find? id = none) :
    (∃ result, notice = .finished id result) ∨
      ∃ reason, engine.CutsOff id (.notice notice rest) reason := by
  let popped : Engine := { engine with notices := rest }
  have habout : notice.session = id := by
    apply Classical.byContradiction
    intro hother
    have hkept := @find?_receive_of_ne popped id notice (h.wf.table.called hf) (Ne.symm hother)
    rw [show (popped.receive notice).table.find? id = none from hend] at hkept
    rw [show engine.table.find? id = none from hkept.symm] at hf
    cases hf
  cases notice with
  | finished other result =>
    obtain rfl : other = id := habout
    exact .inl ⟨result, rfl⟩
  | suspended other prompt resume =>
    obtain rfl : other = id := habout
    obtain ⟨-, he⟩ | ⟨hbusy, -⟩ := @suspend_cases popped other session hf prompt resume
    · have hact : engine.act (.notice (.suspended other prompt resume) rest) =
          popped.await other session prompt resume := he
      rw [hact, await, table_publish, SessionTable.find?_setPhase, if_pos rfl,
        show popped.table.find? other = some session from hf] at hend
      cases hend
    · exact .inr ⟨.conversationOpen, .conversationOpen hf hbusy⟩

/-- An active session ends when its script comes to an end, or it is cut off. -/
theorem Reachable.ends_cases (h : engine.Reachable) (hf : engine.table.find? id = some session)
    (hend : (engine.act act).table.find? id = none) :
    (∃ result rest, act = .notice (.finished id result) rest) ∨
      ∃ reason, engine.CutsOff id act reason := by
  cases act with
  | command command => exact .inr (h.cutsOff_of_command hf hend)
  | notice notice rest =>
    obtain ⟨result, rfl⟩ | hcut := h.ends_of_notice hf hend
    · exact .inl ⟨result, rest, rfl⟩
    · exact .inr hcut
  | poll other =>
    have hsame : (engine.act (.poll other)).table = engine.table := by
      rw [Engine.act]
      split
      · exact table_poll _ _ _
      · rfl
    rw [hsame, hf] at hend
    cases hend
  | unpark | edit =>
    rw [show engine.table.find? id = none from hend] at hf
    cases hf

/-- An act that cuts a session off severs it, with others perhaps, once the notice that it takes no
longer waits. -/
theorem CutsOff.severs {reason : CancelReason} (hcut : engine.CutsOff id act reason)
    (h : engine.Reachable) (htakes : engine.Takes act) :
    ∃ notices ids, WF { engine with notices } ∧ ids.Nodup ∧ id ∈ ids ∧
      Severs { engine with notices } ids reason (engine.act act) := by
  have hcommand : ∀ command session, engine.accepting = true →
      engine.table.find? id = some session → command.Hits session →
      command.reason? = some reason → ∃ notices ids, WF { engine with notices } ∧ ids.Nodup ∧
        id ∈ ids ∧ Severs { engine with notices } ids reason (engine.act (.command command)) := by
    intro command session haccepting hf hhits hreason
    obtain ⟨ids, hcuts⟩ := exists_cuts haccepting h.oneDialogue hreason
    exact ⟨engine.notices, ids, h.wf, nodup_of_ascending hcuts.ascending,
      (hcuts.exact id).2 ⟨session, hf, hhits⟩, hcuts.severs⟩
  cases hcut with
  | disconnected accepting found => exact hcommand _ _ accepting found rfl rfl
  | mapChanged accepting found elsewhere =>
    obtain ⟨hf, -, hwaits⟩ := SessionTable.of_suspendedOf?_eq_some found
    exact hcommand _ _ accepting hf ⟨rfl, hwaits, elsewhere⟩ rfl
  | shutdown accepting found => exact hcommand _ _ accepting found trivial rfl
  | @conversationOpen session prompt resume rest found busy =>
    let popped : Engine := { engine with notices := rest }
    have hwf : popped.WF := (Move.dropped htakes).wf h.wf
    have hcut : engine.act (.notice (.suspended id prompt resume) rest) =
        popped.cancel id .conversationOpen := by
      obtain ⟨hfree, -⟩ | ⟨-, he⟩ := @suspend_cases popped id session found prompt resume
      · rw [show engine.table.suspendedOf? session.player = none from hfree] at busy
        cases busy
      · exact he
    rw [hcut]
    exact ⟨rest, [id], hwf, List.nodup_singleton id, List.mem_singleton_self id,
      @severs_cancel popped id session found .conversationOpen⟩

/-- Whatever follows, a trigger that waited behind a session that is cut off is never heard of. -/
theorem CutsOff.silent_queued {reason : CancelReason} (hcut : engine.CutsOff id act reason)
    (h : engine.Reachable) (htakes : engine.Takes act) (hf : engine.table.find? id = some session)
    {queued : QueuedTrigger} (hq : queued ∈ session.queue) (acts : List Act) :
    ((engine.act act).after acts).eventsOf queued.id = [] := by
  obtain ⟨notices, ids, hwf, hnodup, hid, hsevers⟩ := hcut.severs h htakes
  have hunheard := h.eventsOf_eq_nil (SessionTable.not_called_of_mem_queue hf hq)
  exact hsevers.silent_queued hwf hnodup hid hf hq hunheard acts

/-- In any state that can be reached, scripts answer whatever waits. -/
private theorem Reachable.linesBound (h : engine.Reachable) : engine.LinesBound := by
  obtain ⟨registry, world, acts, -, rfl⟩ := h
  obtain ⟨-, -, haccounted⟩ := accounted_after registry world acts
  exact linesBound_of_accounted haccounted

/-- A number that was promised to a trigger waits for that player and that trigger only. -/
private theorem Reachable.subject_of_promised (h : engine.Reachable) {player : PlayerId}
    {trigger : Trigger} {number : SessionId}
    (hqueued : (engine.handle (.trigger player trigger)).2 = .ok (.triggered (.queued number)))
    (acts : List Act) :
    let later := (engine.handle (.trigger player trigger)).1.after acts
    later.table.find? id = some session → ∀ queued ∈ session.queue, queued.id = number →
      session.player = player ∧ queued.trigger = trigger := by
  intro later hf queued hq hnumber
  obtain ⟨registry, world, before, -, rfl⟩ := h
  let request : Act := .command (.trigger player trigger)
  have hlater : later = (new registry world).after (before ++ request :: acts) :=
    (after_append _ before (request :: acts)).symm
  obtain ⟨-, hnumbers, haccounted⟩ := accounted_after registry world (before ++ request :: acts)
  have hpromised : ⟨number, player, trigger⟩ ∈
      (new registry world).admissions (before ++ request :: acts) := by
    rw [admissions_append, admissions, admits, hqueued]
    exact List.mem_append_right _ (List.mem_append_left _ (List.mem_singleton_self _))
  have hwaiting : ⟨queued.id, session.player, queued.trigger⟩ ∈
      (new registry world).admissions (before ++ request :: acts) := by
    apply (haccounted session.slot).mem_admitted
    have hwf := wf_after registry world (before ++ request :: acts)
    rw [hlater] at hf
    rw [line, SessionTable.queueIn_of_inSlot? (hwf.inSlot?_iff.2 ⟨hf, rfl⟩)]
    exact List.mem_map.2 ⟨queued, hq, rfl⟩
  -- Each number is given to one subject only.
  have hnodup : (((new registry world).admissions (before ++ request :: acts)).map
      fun subject => subject.session.val).Nodup := by
    rw [hnumbers]
    exact List.nodup_range'
  have hsame := List.inj_on_of_nodup_map hnodup hwaiting hpromised
    (congrArg SessionId.val hnumber)
  exact ⟨congrArg Subject.player hsame, congrArg Subject.trigger hsame⟩

/-- What becomes of a number that was promised to a trigger: once it is first behind an active session,
that session ends in one of two ways. If the script of the session comes to an end, whatever its
result, and the world still knows the player, then the player's session for that trigger starts at
once, under the number promised and with the rest of the queue. If the session is cut off, by the
loss of the player, a move, a shutdown or a prompt beside an open dialogue, then nothing is ever
published under that number. -/
theorem promised_starts_or_silent (h : engine.Reachable) {player : PlayerId} {trigger : Trigger}
    {number : SessionId}
    (hqueued : (engine.handle (.trigger player trigger)).2 = .ok (.triggered (.queued number)))
    {acts : List Act} (horder : (engine.handle (.trigger player trigger)).1.InOrder acts)
    {queued : QueuedTrigger} {others : List QueuedTrigger} :
    let later := (engine.handle (.trigger player trigger)).1.after acts
    later.table.find? id = some session → session.queue = queued :: others → queued.id = number →
    later.Takes act → (later.act act).table.find? id = none →
      (∃ result rest, act = .notice (.finished id result) rest ∧
        ((later.world.player? player).isSome →
          (later.act act).log = later.log ++
            [⟨⟨id, player, session.trigger⟩, .ended (.ofResult result)⟩,
              ⟨⟨number, player, trigger⟩, .started⟩] ∧
          (later.act act).table.inSlot? ⟨player, trigger.key⟩ =
            some (number, ⟨player, trigger, .running, others⟩))) ∨
      ∃ reason, later.CutsOff id act reason ∧
        ∀ more, ((later.act act).after more).eventsOf number = [] := by
  intro later hf hqueue hnumber htakes hend
  have hreach : later.Reachable :=
    @Reachable.after engine h (.command (.trigger player trigger) :: acts) ⟨trivial, horder⟩
  have hfirst : queued ∈ session.queue := by simp [hqueue]
  obtain ⟨rfl, rfl⟩ := h.subject_of_promised hqueued acts hf queued hfirst hnumber
  subst hnumber
  obtain ⟨result, rest, rfl⟩ | ⟨reason, hcut⟩ := hreach.ends_cases hf hend
  · refine .inl ⟨result, rest, rfl, fun hknown => ?_⟩
    obtain ⟨hslot, hlog⟩ := @finish_hands_on { later with notices := rest } hreach.wf.table
      hreach.linesBound id session queued others hf hqueue hknown result
    have hkey := hreach.wf.table.key_of_mem_queue id session hf queued hfirst
    rw [Session.slot, ← hkey] at hslot
    exact ⟨hlog, hslot⟩
  · exact .inr ⟨reason, hcut, hcut.silent_queued hreach htakes hf hfirst⟩

/-- The player has sent the NPC on its errand and asks for another one; when the first is over, the
second starts under its number. -/
theorem promised_starts_errand :
    let request := Command.trigger ⟨1⟩ (.npc ⟨1⟩ ⟨5⟩)
    let asked := (new errandRegistry errandWorld).play [.command request]
    let later := (asked.handle request).1.after [.unpark ⟨1⟩, .poll ⟨1⟩]
    (asked.handle request).2 = .ok (.triggered (.queued ⟨2⟩)) ∧
      (later.act (.notice (.finished ⟨1⟩ (.ok ())) [])).table.inSlot? ⟨⟨1⟩, .npc ⟨1⟩⟩ =
        some (⟨2⟩, ⟨⟨1⟩, .npc ⟨1⟩ ⟨5⟩, .running, []⟩) := by
  intro request asked later
  have hreach : asked.Reachable := reachable_play errandRegistry errandWorld _
  have hqueued : (asked.handle request).2 = .ok (.triggered (.queued ⟨2⟩)) := rfl
  have horder : (asked.handle request).1.InOrder [.unpark ⟨1⟩, .poll ⟨1⟩] :=
    ⟨trivial, trivial, trivial⟩
  have hactive : later.table.find? ⟨1⟩ =
      some ⟨⟨1⟩, .npc ⟨1⟩ ⟨5⟩, .running, [⟨⟨2⟩, .npc ⟨1⟩ ⟨5⟩⟩]⟩ := rfl
  have htakes : later.Takes (.notice (.finished ⟨1⟩ (.ok ())) []) := rfl
  refine ⟨hqueued, ?_⟩
  obtain ⟨result, rest, -, hstarts⟩ | ⟨reason, hcut, -⟩ :=
    promised_starts_or_silent hreach hqueued horder hactive rfl rfl htakes rfl
  · exact (hstarts rfl).2
  · cases hcut

/-- Two reactors: a gate that opens when it is released, which it says, and a sign. -/
def gateRegistry : Registry :=
  (Registry.empty.insert (.reactor ⟨1⟩) ⟨"gate", fun _ => .park (.say "The gate is open.")⟩).insert
    (.reactor ⟨2⟩) ⟨"sign", fun _ => .say "Mind the step."⟩

/-- The player has knocked at the gate. -/
def gateIsShut : Engine :=
  (new gateRegistry errandWorld).play [.command (.trigger ⟨1⟩ (.reactor ⟨1⟩ ⟨5⟩))]

/-- So it is not true that the promise is always kept unless the player is lost, moves or everything
ends: if the player knocks again and reads the sign when the gate opens, the first knock is cut off
and the second one is dropped with it. -/
theorem not_every_promise_kept : ¬ ∀ (engine : Engine) (player : PlayerId) (trigger : Trigger)
    (number : SessionId) (operations : List Operation) (id : SessionId) (session : Session)
    (queued : QueuedTrigger) (others : List QueuedTrigger) (operation : Operation),
    engine.Reachable →
    (engine.perform (.trigger player trigger)).2 = .ok (.triggered (.queued number)) →
    let later := (engine.perform (.trigger player trigger)).1.play operations
    later.table.find? id = some session → session.queue = queued :: others → queued.id = number →
    (∀ command, operation = .command command → command.reason? = none) →
    (later.operate operation).table.find? id = none →
    ((later.operate operation).world.player? player).isSome →
    ⟨⟨number, player, trigger⟩, .started⟩ ∈ (later.operate operation).log := by
  intro hkept
  have hactive : ((gateIsShut.perform (.trigger ⟨1⟩ (.reactor ⟨1⟩ ⟨5⟩))).1.play
      [.command (.trigger ⟨1⟩ (.reactor ⟨2⟩ ⟨5⟩))]).table.find? ⟨1⟩ =
      some ⟨⟨1⟩, .reactor ⟨1⟩ ⟨5⟩, .running, [⟨⟨2⟩, .reactor ⟨1⟩ ⟨5⟩⟩]⟩ := rfl
  have hstarted := hkept gateIsShut ⟨1⟩ (.reactor ⟨1⟩ ⟨5⟩) ⟨2⟩
    [.command (.trigger ⟨1⟩ (.reactor ⟨2⟩ ⟨5⟩))] ⟨1⟩ _ _ _ (.release ⟨⟨1⟩, .reactor ⟨1⟩⟩)
    (reachable_play gateRegistry errandWorld _) rfl hactive rfl rfl nofun rfl rfl
  revert hstarted
  decide +kernel

end Engine
end Encounter
