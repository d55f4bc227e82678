import Encounter.Proofs.Conversation.Turn

/-!
# Replies one after the other

A player sends replies, whatever they are, and the engine comes to rest after each. The prompts take
those they accept; the session then does what a replay of the script against just these replies does
(`Engine.Rests.converse`).
-/

namespace Encounter

/-- How an observer sees a visible act of a script. -/
def TranscriptEntry.happening : TranscriptEntry → Happening
  | .prompt p => .prompted p
  | .effect e => .effected e

/-- What happens in a session that plays the script against the replies: the transcript, and the end
if the script gets to it. -/
def Script.recount (script : Script Unit) (replies : List Reply) : List Happening :=
  (script.replay replies).entries.map TranscriptEntry.happening ++
    if script.asksBeyond replies then [] else [.ended (.ofResult (script.replay replies).result)]

namespace Engine

/-- The player sends replies, from left to right. Gives the engine afterwards, and the replies that
it accepted. -/
def converse (engine : Engine) (player : PlayerId) : List Reply → Engine × List Reply
  | [] => (engine, [])
  | reply :: replies =>
    let (next, answer) := engine.perform (.respond player reply)
    let (last, accepted) := converse next player replies
    match answer with
    | .ok _ => (last, reply :: accepted)
    | .error _ => (last, accepted)

/-- Since `before` the session did what the script does against the replies, and it is over or waits
on the last prompt accordingly. -/
structure Recounts (engine : Engine) (subject : Subject) (before : List Event)
    (script : Script Unit) (replies : List Reply) : Prop where
  events : engine.eventsOf subject.session = before ++ subject.events (script.recount replies)
  ended : script.asksBeyond replies = false → engine.table.find? subject.session = none
  waiting : script.asksBeyond replies = true →
    ∃ prompt next, (script.replay replies).entries.getLast? = some (.prompt prompt) ∧
      engine.table.find? subject.session =
        some (subject.inPhase (.suspended prompt next))

variable {engine : Engine} {subject : Subject} {before : List Event} {script : Script Unit}
variable {effects : List Effect} {prompt : Prompt} {next : prompt.kind.Answer → Script Unit}

private theorem perform_respond (h : engine.accepting = true) (player : PlayerId) (reply : Reply) :
    engine.perform (.respond player reply) =
      ((engine.respond player reply).1.settle,
        (engine.respond player reply).2.map fun _ => .resumed) := by
  rw [perform, handle_respond h]

/-- A refused reply changes nothing. -/
private theorem Solo.perform_of_refused (h : Solo engine subject) {reply : Reply}
    {error : EngineError} (hr : engine.respond subject.player reply = (engine, .error error)) :
    engine.perform (.respond subject.player reply) = (engine, .error error) := by
  rw [perform_respond h.accepting, hr]
  dsimp only
  rw [settle_of_quiet h.quiet]
  rfl

/-- Once the session is over every reply is refused. -/
private theorem Solo.refused_of_gone (h : Solo engine subject)
    (hgone : engine.table.find? subject.session = none) (reply : Reply) :
    ∃ error, engine.respond subject.player reply = (engine, .error error) := by
  obtain ⟨id, session, shown, rest, hs, -⟩ | hrefused := engine.respond_cases subject.player reply
  · obtain ⟨hf, hp, -⟩ := SessionTable.of_suspendedOf?_eq_some hs
    rw [h.alone id session hf hp, hgone] at hf
    cases hf
  · exact hrefused

/-- The open dialogue of the player is the one session. -/
theorem Solo.suspendedOf? (h : Solo engine subject)
    (hf : engine.table.find? subject.session =
      some (subject.inPhase (.suspended prompt next))) :
    engine.table.suspendedOf? subject.player =
      some (subject.session,
        (subject.inPhase (.suspended prompt next))) := by
  cases hs : engine.table.suspendedOf? subject.player with
  | none =>
    have hrun := SessionTable.suspendedOf?_eq_none_iff.1 hs subject.session _ hf rfl
    cases hrun
  | some entry =>
    obtain ⟨id, session⟩ := entry
    obtain ⟨hfound, hp, -⟩ := SessionTable.of_suspendedOf?_eq_some hs
    have hid := h.alone id session hfound hp
    subst hid
    rw [hf] at hfound
    cases hfound
    rfl

/-- The prompt decides about the reply. -/
theorem Solo.respond_of_waiting (h : Solo engine subject)
    (hf : engine.table.find? subject.session =
      some (subject.inPhase (.suspended prompt next))) (reply : Reply) :
    engine.respond subject.player reply =
      if prompt.accepts reply then
        (engine.resume subject.session
          (subject.inPhase (.suspended prompt next))
          (Script.answer prompt next reply), .ok ())
      else (engine, .error (.replyMismatch subject.player prompt.kind reply)) :=
  Engine.respond_of_waiting (h.suspendedOf? hf) rfl reply

private theorem eventsOf_resume (engine : Engine) (id other : SessionId) (session : Session)
    (script : Script Unit) :
    (engine.resume id session script).eventsOf other = engine.eventsOf other := rfl

/-- The session that goes on is ready for its next turn. -/
private theorem Solo.ready_resume (h : Solo engine subject)
    (hf : engine.table.find? subject.session =
      some (subject.inPhase (.suspended prompt next))) (script : Script Unit) :
    Ready (engine.resume subject.session
      (subject.inPhase (.suspended prompt next)) script) subject script := by
  obtain ⟨hnotices, htask, hparked⟩ := hasTurn_resume h.quiet subject.session
    (subject.inPhase (.suspended prompt next)) script
  have hfind : ∀ other, (engine.table.setPhase subject.session .running).find? other =
      if other = subject.session then
        some (subject.inPhase .running)
      else engine.table.find? other := by
    intro other
    rw [SessionTable.find?_setPhase, hf]
    rfl
  refine ⟨h.accepting, hnotices, htask, hparked, ?_, ?_⟩
  · exact (hfind _).trans (if_pos rfl)
  · intro other session ho hp
    have ho := (hfind other).symm.trans ho
    split at ho
    · next he => exact he
    · exact h.alone other session ho hp

private theorem converse_cons_of_refused {player : PlayerId} {reply : Reply} {error : EngineError}
    (h : engine.perform (.respond player reply) = (engine, .error error)) (replies : List Reply) :
    engine.converse player (reply :: replies) = engine.converse player replies := by
  rw [converse, h]

private theorem converse_cons_of_accepted {after : Engine} {player : PlayerId} {reply : Reply}
    {answer : Answer} (h : engine.perform (.respond player reply) = (after, .ok answer))
    (replies : List Reply) :
    engine.converse player (reply :: replies) =
      ((after.converse player replies).1, reply :: (after.converse player replies).2) := by
  rw [converse, h]

/-- A session that is over recounts its script, whatever the replies. -/
private theorem recounts_of_ended {result : Except ScriptError Unit}
    (hstop : script.advance = (effects, .ended result))
    (hgone : engine.table.find? subject.session = none)
    (hevents : engine.eventsOf subject.session =
      before ++ subject.events (effects.map .effected ++ [.ended (.ofResult result)])) :
    Recounts engine subject before script [] := by
  have hbeyond := Script.asksBeyond_of_ended hstop []
  refine ⟨?_, fun _ => hgone, ?_⟩
  · rw [hevents, Script.recount, Script.replay_of_ended hstop, hbeyond, List.map_map]
    rfl
  · intro hb
    rw [hbeyond] at hb
    cases hb

/-- A session that waits recounts its script up to the prompt. -/
private theorem recounts_of_waiting (hstop : script.advance = (effects, .asking prompt next))
    (hfound : engine.table.find? subject.session =
      some (subject.inPhase (.suspended prompt next)))
    (hevents : engine.eventsOf subject.session =
      before ++ subject.events (effects.map .effected ++ [.prompted prompt])) :
    Recounts engine subject before script [] := by
  have hbeyond := Script.asksBeyond_nil_of_asking hstop
  refine ⟨?_, ?_, fun _ => ⟨prompt, next, ?_, hfound⟩⟩
  · rw [hevents, Script.recount, Script.replay_nil_of_asking hstop, hbeyond, List.map_append,
      List.map_map, if_pos rfl, List.append_nil]
    rfl
  · intro hb
    rw [hbeyond] at hb
    cases hb
  · rw [Script.replay_nil_of_asking hstop, List.getLast?_append]
    rfl

/-- What follows on a reply is recounted behind the prompt. -/
theorem Recounts.cons (hstop : script.advance = (effects, .asking prompt next)) {reply : Reply}
    {replies : List Reply}
    (h : Recounts engine subject
      (before ++ subject.events (effects.map .effected ++ [.prompted prompt]))
      (Script.answer prompt next reply) replies) :
    Recounts engine subject before script (reply :: replies) := by
  have hreplay := Script.replay_cons_of_asking hstop reply replies
  have hbeyond := Script.asksBeyond_cons_of_asking hstop reply replies
  refine ⟨?_, ?_, ?_⟩
  · have hrecount : script.recount (reply :: replies) =
        effects.map .effected ++ [.prompted prompt] ++
          (Script.answer prompt next reply).recount replies := by
      rw [Script.recount, Script.recount, hreplay, hbeyond]
      simp [TranscriptEntry.happening, Function.comp_def]
    rw [h.events, hrecount, List.append_assoc]
    exact congrArg (before ++ ·) List.map_append.symm
  · rw [hbeyond]
    exact h.ended
  · rw [hbeyond, hreplay]
    intro hb
    obtain ⟨shown, rest, hlast, hfound⟩ := h.waiting hb
    refine ⟨shown, rest, ?_, hfound⟩
    rw [List.getLast?_append, List.getLast?_cons, hlast]
    rfl

/-- From where the engine rests, the session takes the replies that the prompts accept, and does
what the script does against them. -/
theorem Rests.converse {script : Script Unit} (hrests : Rests engine subject before script)
    (hsolo : Solo engine subject) (hs : script.NeverParks) (replies : List Reply) :
    (engine.converse subject.player replies).2 = script.heard replies ∧
      Recounts (engine.converse subject.player replies).1 subject before script
        (script.heard replies) := by
  induction replies generalizing engine before script with
  | nil =>
    refine ⟨rfl, ?_⟩
    cases hrests with
    | ended stop gone events => exact recounts_of_ended stop gone events
    | waiting stop found events => exact recounts_of_waiting stop found events
  | cons reply replies ih =>
    cases hrests with
    | @ended effects result stop gone events =>
      obtain ⟨error, hrefused⟩ := hsolo.refused_of_gone gone reply
      have hheard : script.heard (reply :: replies) = script.heard replies := by
        rw [Script.heard_of_ended stop, Script.heard_of_ended stop]
      rw [converse_cons_of_refused (hsolo.perform_of_refused hrefused), hheard]
      exact ih (.ended stop gone events) hsolo hs
    | @waiting effects prompt next stop found events =>
      have hrespond := hsolo.respond_of_waiting found reply
      cases ha : prompt.accepts reply with
      | false =>
        rw [ha, if_neg Bool.false_ne_true] at hrespond
        have hheard : script.heard (reply :: replies) = script.heard replies := by
          rw [Script.heard_cons_of_asking stop, ha, if_neg Bool.false_ne_true]
        rw [converse_cons_of_refused (hsolo.perform_of_refused hrespond), hheard]
        exact ih (.waiting stop found events) hsolo hs
      | true =>
        rw [ha, if_pos rfl] at hrespond
        have hperform := perform_respond hsolo.accepting subject.player reply
        rw [hrespond] at hperform
        have hheard : script.heard (reply :: replies) =
            reply :: (Script.answer prompt next reply).heard replies := by
          rw [Script.heard_cons_of_asking stop, ha, if_pos rfl]
        -- The next turn starts from the events up to the prompt.
        have hready := hsolo.ready_resume found (Script.answer prompt next reply)
        obtain ⟨hsolo', hrests'⟩ := hready.rests (hs.answer_of_asking stop reply)
        rw [eventsOf_resume, events] at hrests'
        obtain ⟨haccepted, hrecounts⟩ := ih hrests' hsolo' (hs.answer_of_asking stop reply)
        rw [converse_cons_of_accepted hperform, hheard]
        exact ⟨congrArg (reply :: ·) haccepted, hrecounts.cons stop⟩

end Engine
end Encounter
