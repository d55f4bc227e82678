import Encounter.Proofs.Cancellation.Exact
import Encounter.Proofs.Conversation.Exclusive

/-!
# An open dialogue lasts

A session that waits on a prompt stays as it is, with the prompt, its continuation and its queue,
whatever else happens to its player or to others: only a reply that fits, the loss of the player, a
move to another map and a shutdown end the wait (`Session.ClosedBy`). One act at a time these four
are the exact condition (`Engine.Reachable.act_of_open`), and so a run without them leaves the
dialogue open.
-/

namespace Encounter

/-- The act ends the wait of the session: the player gives a reply that its prompt accepts, or it is
a command that cuts the session off. -/
def Session.ClosedBy (session : Session) : Act → Prop
  | .command (.respond player reply) =>
    player = session.player ∧
      ∃ prompt, session.phase.prompt? = some prompt ∧ prompt.accepts reply = true
  | .command command => command.Hits session
  | _ => False

namespace Engine

variable {engine : Engine} {id : SessionId} {session : Session}

/-- A prompt of another session leaves this one as it is. -/
private theorem find?_suspend_of_ne {other : SessionId} (h : id ≠ other) (prompt : Prompt)
    (next : prompt.kind.Answer → Script Unit) :
    (engine.suspend other prompt next).table.find? id = engine.table.find? id := by
  cases hf : engine.table.find? other with
  | none => rw [suspend_of_find?_eq_none hf]
  | some found =>
    obtain ⟨-, he⟩ | ⟨-, he⟩ := suspend_cases hf prompt next
    · rw [he, await, table_publish, SessionTable.find?_setPhase, if_neg h]
    · rw [he, find?_cancel, if_neg h]

/-- A notice concerns no session but its own, and one that starts by it. -/
theorem find?_receive_of_ne {notice : Notice} (hcalled : engine.table.Called id)
    (h : id ≠ notice.session) : (engine.receive notice).table.find? id = engine.table.find? id := by
  cases notice with
  | suspended other prompt next => exact find?_suspend_of_ne h prompt next
  | finished other result => exact (find?_finish hcalled other result).trans (if_neg h)

/-- No trigger touches a session that waits: it is queued behind running ones only. -/
private theorem find?_trigger_of_open (hwf : engine.table.WF)
    (hf : engine.table.find? id = some session)
    (hs : session.isSuspended = true) (player : PlayerId) (trigger : Trigger) :
    (engine.trigger player trigger).1.table.find? id = some session := by
  obtain ⟨script, view, -, -, -, -, he⟩ | ⟨other, found, htaken, hruns, -, he⟩ | ⟨result, -, he⟩ :=
    engine.trigger_cases player trigger
  · have hne : id ≠ engine.table.next := by
      rintro rfl
      exact hwf.next_notMem (SessionTable.mem_numbers_of_find? hf)
    have hadd := engine.table.allocate.find?_add engine.table.next id
    rw [he]
    exact (hadd _).trans ((if_neg hne).trans hf)
  · have hne : id ≠ other := by
      rintro rfl
      rw [(SessionTable.inSlot?_eq_some_iff.1 htaken).2] at hf
      cases hf
      rw [hs] at hruns
      cases hruns
    have henqueue := engine.table.allocate.find?_enqueue other id
    rw [he]
    exact (henqueue _).trans ((if_neg hne).trans hf)
  · rw [he]
    exact hf

/-- A reply touches a session that waits exactly if it comes from the player and fits the prompt. -/
private theorem find?_respond_of_open (hone : engine.table.OneDialogue)
    (hf : engine.table.find? id = some session) (hs : session.isSuspended = true)
    (player : PlayerId) (reply : Reply) :
    (engine.respond player reply).1.table.find? id = some session ↔
      ¬ session.ClosedBy (.command (.respond player reply)) := by
  have hfound := hone.suspendedOf? hf hs
  obtain ⟨other, found, prompt, next, ho, hphase, hfits, he⟩ | ⟨error, he⟩ :=
    engine.respond_cases player reply
  · obtain ⟨hother, rfl, -⟩ := SessionTable.of_suspendedOf?_eq_some ho
    rw [he]
    by_cases hid : id = other
    · subst hid
      rw [hf] at hother
      cases hother
      have hanswered : session.ClosedBy (.command (.respond session.player reply)) :=
        ⟨rfl, prompt, by rw [hphase, Phase.prompt?], hfits⟩
      exact iff_of_false (find?_resume_ne hf hs _) (not_not_intro hanswered)
    · have hkept : (engine.resume other found (Script.answer prompt next reply)).table.find? id =
          some session := by rw [find?_resume, if_neg hid, hf]
      refine iff_of_true hkept ?_
      rintro ⟨hplayer, -⟩
      rw [hplayer, hfound] at ho
      exact hid (congrArg Prod.fst (Option.some.inj ho))
  · rw [he]
    refine iff_of_true hf ?_
    rintro ⟨rfl, prompt, hp, hfits⟩
    obtain ⟨next, hphase⟩ := Phase.of_prompt?_eq_some hp
    rw [respond_of_waiting hfound hphase, if_pos hfits] at he
    cases congrArg Prod.snd he

/-- Of all commands, just those that close the session change it. -/
private theorem find?_handle_of_open (h : engine.Reachable)
    (hf : engine.table.find? id = some session)
    (hs : session.isSuspended = true) (command : Command) :
    (engine.handle command).1.table.find? id = some session ↔
      ¬ session.ClosedBy (.command command) := by
  have haccepting := h.accepting hf
  have hcut : ∀ reason, command.reason? = some reason →
      ((engine.handle command).1.table.find? id = some session ↔ ¬ command.Hits session) := by
    intro reason hreason
    obtain ⟨ids, hcuts⟩ := exists_cuts haccepting h.oneDialogue hreason
    exact hcuts.find?_iff hf
  cases command with
  | trigger player trigger =>
    rw [handle_trigger haccepting]
    exact iff_of_true (find?_trigger_of_open h.wf.table hf hs player trigger) not_false
  | respond player reply =>
    rw [handle_respond haccepting]
    exact find?_respond_of_open h.oneDialogue hf hs player reply
  | sessions =>
    unfold handle
    rw [haccepting]
    exact iff_of_true hf not_false
  | disconnect => exact hcut .disconnected rfl
  | playerMoved => exact hcut .mapChanged rfl
  | shutdown => exact hcut .shutdown rfl

/-- Of all acts, just those that close a session that waits change it. -/
theorem Reachable.act_of_open (h : engine.Reachable) (hf : engine.table.find? id = some session)
    (hs : session.isSuspended = true) {act : Act} (htakes : engine.Takes act) :
    (engine.act act).table.find? id = some session ↔ ¬ session.ClosedBy act := by
  cases act with
  | command command => exact find?_handle_of_open h hf hs command
  | notice notice rest =>
    -- No notice about the session waits, as long as the session itself does.
    have hne : id ≠ notice.session := by
      rintro rfl
      have hpending := pending_cons htakes notice.session
      rw [((h.wf.fits _).of_suspended hf hs).2, if_pos rfl] at hpending
      omega
    have hkept := @find?_receive_of_ne { engine with notices := rest } id notice
      (h.wf.table.called hf) hne
    exact iff_of_true (hkept.trans hf) not_false
  | poll other =>
    refine iff_of_true ?_ not_false
    unfold Engine.act
    dsimp only
    cases engine.tasks.find? other with
    | none => exact hf
    | some task =>
      dsimp only
      rw [table_poll]
      exact hf
  | unpark | edit => exact iff_of_true hf not_false

/-- What does not close a session that waits leaves it as it is, however much of it happens. -/
theorem Reachable.after_of_open (h : engine.Reachable) (hf : engine.table.find? id = some session)
    (hs : session.isSuspended = true) {acts : List Act} (horder : engine.InOrder acts)
    (hothers : ∀ act ∈ acts, ¬ session.ClosedBy act) :
    (engine.after acts).table.find? id = some session := by
  induction acts generalizing engine with
  | nil => exact hf
  | cons act acts ih =>
    rw [List.forall_mem_cons] at hothers
    have hreach : (engine.act act).Reachable := @Reachable.after engine h [act] ⟨horder.1, trivial⟩
    have hkept := (h.act_of_open hf hs horder.1).2 hothers.1
    exact ih hreach hkept horder.2 hothers.2

/-- A session that waits on a prompt stays just as it is, and stays the one that replies of its
player are about, through anything that does not close it: commands of this player and of others,
notices and tasks of other sessions, changes of the world. Whatever happened so far, the next act
changes it exactly if it closes it: with a reply of the player that the prompt accepts, with the
loss of the player, with a move to another map, or with a shutdown. -/
theorem open_dialogue_lasts (h : engine.Reachable) (hf : engine.table.find? id = some session)
    {prompt : Prompt} {next : prompt.kind.Answer → Script Unit}
    (hphase : session.phase = .suspended prompt next) {acts : List Act}
    (horder : engine.InOrder acts) (hothers : ∀ act ∈ acts, ¬ session.ClosedBy act) :
    let later := engine.after acts
    later.table.find? id = some session ∧
      later.table.suspendedOf? session.player = some (id, session) ∧
      (∀ reply, later.handle (.respond session.player reply) =
        if prompt.accepts reply then
          (later.resume id session (Script.answer prompt next reply), .ok .resumed)
        else (later, .error (.replyMismatch session.player prompt.kind reply))) ∧
      ∀ act, later.Takes act →
        ((later.act act).table.find? id = some session ↔ ¬ session.ClosedBy act) := by
  intro later
  have hs : session.isSuspended = true := by rw [Session.isSuspended, hphase]; rfl
  have hreach : later.Reachable := h.after horder
  have hkept : later.table.find? id = some session := h.after_of_open hf hs horder hothers
  have hfound := hreach.oneDialogue.suspendedOf? hkept hs
  refine ⟨hkept, hfound, ?_, fun act htakes => hreach.act_of_open hkept hs htakes⟩
  intro reply
  rw [handle_respond (hreach.accepting hkept), respond_of_waiting hfound hphase]
  split <;> rfl

/-- The errand is asked for again, is done and starts anew; in between the player touches the sign
again, gives an answer that does not fit and stays on the map. -/
def errandAgain : List Act :=
  [.command (.trigger ⟨1⟩ (.npc ⟨1⟩ ⟨5⟩)), .command (.trigger ⟨1⟩ (.reactor ⟨2⟩ ⟨5⟩)),
    .command (.respond ⟨1⟩ (.selection 0)), .command (.playerMoved ⟨1⟩ ⟨5⟩), .unpark ⟨1⟩, .poll ⟨1⟩,
    .notice (.finished ⟨1⟩ (.ok ())) []]

/-- Meanwhile the sign is still being read. -/
theorem open_dialogue_lasts_sign :
    let later := signIsRead.after errandAgain
    later.table.info? ⟨3⟩ = some ⟨⟨3⟩, ⟨1⟩, .npc ⟨1⟩ ⟨5⟩, none⟩ ∧
      ∃ sign, signIsRead.table.find? ⟨2⟩ = some sign ∧ sign.isSuspended = true ∧
        later.table.find? ⟨2⟩ = some sign := by
  obtain ⟨next, hf⟩ := find?_signIsRead
  have hreach : signIsRead.Reachable := reachable_play errandRegistry errandWorld _
  have horder : signIsRead.InOrder errandAgain :=
    ⟨trivial, trivial, trivial, trivial, trivial, trivial, rfl, trivial⟩
  have hothers : ∀ act ∈ errandAgain, ¬ Session.ClosedBy
      ⟨⟨1⟩, .reactor ⟨2⟩ ⟨5⟩, .suspended ⟨.say, "Mind the step."⟩ next, []⟩ act := by
    simp [errandAgain, Session.ClosedBy, Command.Hits, Trigger.reactor, Phase.prompt?,
      Prompt.accepts]
  obtain ⟨hkept, -⟩ := open_dialogue_lasts hreach hf rfl horder hothers
  exact ⟨rfl, _, hf, rfl, hkept⟩

end Engine
end Encounter
