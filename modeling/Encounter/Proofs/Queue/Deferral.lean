import Encounter.Proofs.Conversation.Turn
import Encounter.Proofs.Queue.Inert

/-!
# Queueing is waiting

A trigger that is queued behind a session starts just as if its player had waited for the end of
that session before touching the thing. All the while the waiting trigger changes nothing else; at
the end of the session it starts in the same world and under the same number as a fresh one.
-/

namespace Encounter
namespace Engine

/-- The operation lets the session of that number, and no other, go on with that script: it is a
reply that fits the open prompt of the session, or releases the slot where its script is parked. -/
inductive Resumes (engine : Engine) (id : SessionId) : Operation → Script Unit → Prop where
  | replied {player : PlayerId} {session : Session} {prompt : Prompt}
      {next : prompt.kind.Answer → Script Unit} {reply : Reply}
      (found : engine.table.suspendedOf? player = some (id, session))
      (waiting : session.phase = .suspended prompt next) (fits : prompt.accepts reply = true) :
      Resumes engine id (.command (.respond player reply)) (Script.answer prompt next reply)
  | released {slot : Slot} {session : Session} {task : Task}
      (found : engine.table.inSlot? slot = some (id, session))
      (owned : engine.tasks.find? id = some task) (parked : task.parked = true) :
      Resumes engine id (.release slot) task.script

variable {engine : Engine} {id : SessionId} {operation : Operation} {script : Script Unit}
variable {session : Session} {effects : List Effect} {result : Except ScriptError Unit}

/-- A session that can be resumed is active. -/
theorem Resumes.active (h : engine.Resumes id operation script) :
    ∃ session, engine.table.find? id = some session := by
  cases h with
  | @replied player session prompt next reply found waiting fits =>
    exact ⟨session, (SessionTable.of_suspendedOf?_eq_some found).1⟩
  | @released slot session task found owned parked =>
    exact ⟨session, (SessionTable.inSlot?_eq_some_iff.1 found).2⟩

/-- What resumes a session is no shutdown. -/
private theorem Resumes.ne_shutdown (h : engine.Resumes id operation script) :
    operation ≠ .command .shutdown := by
  cases h <;> simp

/-- What resumes a session admits no trigger. -/
private theorem Resumes.admissions_eq_nil (h : engine.Resumes id operation script) :
    engine.admissions operation.requests = [] := by
  cases h <;> rfl

/-- The session goes on, and the engine comes to rest. -/
private theorem Resumes.operate_eq (h : engine.Resumes id operation script) (hfits : engine.Fits id)
    (haccepting : engine.accepting = true) (hf : engine.table.find? id = some session) :
    engine.operate operation = (engine.resume id session script).settle := by
  cases h with
  | @replied player found prompt next reply hfound waiting fits =>
    have hsame := (SessionTable.of_suspendedOf?_eq_some hfound).1
    rw [hf] at hsame
    cases hsame
    show (engine.handle (.respond player reply)).1.settle = _
    rw [handle_respond haccepting, respond_of_waiting hfound waiting, if_pos fits]
  | @released slot found task hfound owned parked =>
    have hsame := (SessionTable.inSlot?_eq_some_iff.1 hfound).2
    rw [hf] at hsame
    cases hsame
    obtain ⟨owner, howner, hruns, horigin, -⟩ := hfits.task task owned
    rw [hf] at howner
    cases howner
    -- The session runs already, so only its task changes.
    have hresume : engine.resume id session task.script =
        { engine with tasks := engine.tasks.insert id { task with parked := false } } := by
      have hphase := SessionTable.setPhase_eq_self hf
      rw [hruns] at hphase
      rw [resume, hphase, ← horigin]
    show (engine.release slot).1 = _
    rw [release, hfound]
    dsimp only
    rw [owned]
    dsimp only
    rw [if_pos parked, hresume]

/-- The trigger that waits does not keep its session from going on. -/
theorem Resumes.enqueue (h : engine.Resumes id operation script) (ahead : SessionId)
    (trigger : Trigger) : (engine.enqueue ahead trigger).Resumes id operation script := by
  cases h with
  | @replied player session prompt next reply found waiting fits =>
    have hfound := engine.table.suspendedOf?_queueUp ahead trigger player
    rw [found] at hfound
    exact .replied hfound ((SessionTable.phase_extended _ _ _ _ _).trans waiting) fits
  | @released slot session task found owned parked =>
    have hfound := engine.table.inSlot?_queueUp ahead trigger slot
    rw [found] at hfound
    exact .released hfound owned parked

theorem HasTurn.enqueue {subject : Subject} (h : HasTurn engine subject script) (id : SessionId)
    (trigger : Trigger) : HasTurn (engine.enqueue id trigger) subject script :=
  ⟨h.notices, h.task, h.parked⟩

/-- A trigger behind a session that is gone has a number and nothing else. -/
private theorem enqueue_of_find?_eq_none (h : engine.table.find? id = none) (trigger : Trigger) :
    engine.enqueue id trigger = { engine with table := engine.table.allocate } :=
  congrArg (fun table => { engine with table }) (SessionTable.queueUp_of_find?_eq_none h trigger)

/-- When the session ends, the only trigger behind it starts like one that comes only now. -/
private theorem finish_enqueue_ahead {trigger : Trigger} {view : PlayerView} {named : NamedScript}
    (hf : engine.table.find? id = some session) (hqueue : session.queue = [])
    (hscript : engine.registry.find? trigger.key = some named)
    (hview : engine.world.player? session.player = some view)
    (result : Except ScriptError Unit) :
    (engine.enqueue id trigger).finish id result =
      (engine.finish id result).startNext view trigger named := by
  have hgone : (engine.conclude id session (.ofResult result)).table.find? id = none := by
    rw [table_conclude, SessionTable.find?_remove, if_pos rfl]
  rw [finish_of_queue_nil hf hqueue, finish, table_enqueue, SessionTable.find?_queueUp, hf]
  dsimp only [Option.map_some]
  rw [conclude_enqueue, SessionTable.player_extended, enqueue_of_find?_eq_none hgone,
    SessionTable.extended, if_pos rfl, hqueue]
  apply startQueued_of_known
  · exact hscript
  · exact hview

/-- The operation that makes the session end frees its slot and gives away no number. If a trigger
waits, that one then starts like one that comes only now. -/
private theorem operate_of_ends (hquiet : engine.step? = none) (hwf : engine.WF)
    (haccepting : engine.accepting = true) (hf : engine.table.find? id = some session)
    (hqueue : session.queue = []) (hresumes : engine.Resumes id operation script)
    (hends : script.advance = (effects, .ended result)) {trigger : Trigger} {view : PlayerView}
    {named : NamedScript} (hscript : engine.registry.find? trigger.key = some named)
    (hview : (engine.operate operation).world.player? session.player = some view) :
    (engine.operate operation).table.next = engine.table.next ∧
      (engine.operate operation).table.inSlot? session.slot = none ∧
      (engine.enqueue id trigger).operate operation =
        ((engine.operate operation).startNext view trigger named).settle := by
  let subject : Subject := ⟨id, session.player, session.trigger⟩
  let done : Engine := (engine.resume id session script).taskDone subject effects
  have hfits := hwf.fits id
  have hturn : HasTurn (engine.resume id session script) subject script :=
    hasTurn_resume hquiet id session script
  have hdone : done.table.find? id = some { session with phase := .running } := by
    refine (engine.table.find?_setPhase id id .running).trans ?_
    rw [if_pos rfl, hf]
    rfl
  have hoperate : engine.operate operation = done.finish id result := by
    rw [hresumes.operate_eq hfits haccepting hf, hturn.settle_of_ended hends]
    apply settle_of_quiet
    rw [finish_of_queue_nil hdone hqueue]
    exact hturn.step?_eq_none rfl rfl
  have hwaiting : (engine.enqueue id trigger).operate operation =
      ((done.enqueue id trigger).finish id result).settle := by
    have hfound : (engine.enqueue id trigger).table.find? id =
        some (engine.table.extended id trigger id session) := by
      rw [table_enqueue, SessionTable.find?_queueUp, hf, Option.map_some]
    rw [(hresumes.enqueue id trigger).operate_eq (hfits.enqueue id trigger) haccepting hfound,
      resume_enqueue, (hturn.enqueue id trigger).settle_of_ended hends]
    rfl
  have hfinish := finish_of_queue_nil hdone hqueue result
  have hworld : (engine.operate operation).world = done.world := by
    rw [hoperate, hfinish]
    rfl
  rw [hworld] at hview
  rw [hwaiting, finish_enqueue_ahead hdone hqueue hscript hview, hoperate]
  refine ⟨?_, ?_, rfl⟩
  · rw [hfinish]
    rfl
  · have hremove := (hwf.table.setPhase id .running).inSlot?_remove hdone session.slot
    rw [hfinish, table_conclude]
    exact hremove.trans (if_pos rfl)

/-- A trigger is queued behind the session of its thing that runs. -/
private theorem Reachable.perform_trigger_of_running (h : engine.Reachable)
    (hquiet : engine.step? = none)
    (hf : engine.table.find? id = some session) (hruns : session.phase = .running)
    (hknown : (engine.world.player? session.player).isSome) {trigger : Trigger}
    (hkey : trigger.key = session.trigger.key) :
    engine.perform (.trigger session.player trigger) =
      (engine.enqueue id trigger, .ok (.triggered (.queued engine.table.next))) := by
  obtain ⟨named, hnamed⟩ := Option.isSome_iff_exists.1 (h.bound hf)
  rw [← hkey] at hnamed
  have hslot : session.slot = ⟨session.player, trigger.key⟩ := by rw [hkey, Session.slot]
  have htaken := h.wf.table.inSlot?_iff.2 ⟨hf, hslot⟩
  have hawake : session.isSuspended = false := by simp [Session.isSuspended, hruns, Phase.prompt?]
  rw [perform, handle_trigger (h.accepting hf), trigger_of_running hnamed htaken hawake,
    if_pos hknown]
  exact congrArg (·, _) (settle_enqueue_of_quiet hquiet id trigger)

/-- A run that admits no trigger leaves the queue of a session that stays. -/
theorem Reachable.stays (h : engine.Reachable) (hf : engine.table.find? id = some session)
    {operations : List Operation} (hadmitted : engine.admittedBy operations = []) {later : Session}
    (hlater : (engine.play operations).table.find? id = some later) :
    later.player = session.player ∧ later.trigger = session.trigger ∧
      later.queue = session.queue := by
  have hcalled := h.wf.table.called hf
  obtain ⟨found, hfound, hplayer, htrigger, hqueue⟩ :=
    (engine.moves_play operations).changes.persists hcalled later hlater
  rw [hf] at hfound
  cases hfound
  exact ⟨hplayer, htrigger, hqueue (h.next_play hadmitted)⟩

/-- While the session stays, the commands of a run are answered as without the trigger that waits,
up to the operation that follows. -/
private theorem answer_enqueue (hcalled : engine.table.Called id) (trigger : Trigger)
    {operations : List Operation} {last : Operation}
    (hadmitted : engine.admittedBy (operations ++ [last]) = [])
    (hactive : ((engine.play operations).table.find? id).isSome) {before after : List Operation}
    {request : Command} (hsplit : operations ++ [last] = before ++ .command request :: after) :
    (((engine.enqueue id trigger).play before).perform request).2 =
      ((engine.play before).perform request).2 := by
  -- The command comes in the run or right after it, so the session is still there.
  have hpart : before <+: operations := by
    have hlength := congrArg List.length hsplit
    simp only [List.length_append, List.length_cons, List.length_nil] at hlength
    apply List.prefix_of_prefix_length_le (List.prefix_append before (.command request :: after))
    · rw [← hsplit]
      exact List.prefix_append operations [last]
    · omega
  obtain ⟨rest, rfl⟩ := hpart
  have hstays : ((engine.play before).table.find? id).isSome := by
    rw [play_append] at hactive
    obtain ⟨session, hf⟩ := Option.isSome_iff_exists.1 hactive
    obtain ⟨earlier, hearlier, -⟩ := ((engine.play before).moves_play rest).changes.persists
      ((engine.moves_play before).changes.called hcalled) session hf
    exact Option.isSome_iff_exists.2 ⟨earlier, hearlier⟩
  rw [hsplit, admittedBy_append] at hadmitted
  obtain ⟨hbefore, hfollows⟩ := List.append_eq_nil_iff.1 hadmitted
  obtain ⟨hasked, -⟩ := List.append_eq_nil_iff.1 hfollows
  have hnone : (engine.play before).admits (.command request) = [] :=
    (List.append_eq_nil_iff.1 hasked).1
  rw [play_enqueue trigger hcalled hbefore hstays, perform, handle_enqueue _ _ _ hnone]
  rfl

/-- In any quiet state that can be reached, a session of a reactor runs with nothing queued behind
it, and the world knows its player. Then come operations that admit no trigger, the last of which
lets just that session go on, to its end, with the player still known. It makes no difference
whether the player touches the same thing before or after them: the engine comes to rest in the same
state, with the same world and the same log, and each command in between is answered alike. Only the
answer to the touch differs: the trigger is queued in the first case and starts in the second, under
the same number. -/
theorem queueing_is_waiting (hreach : engine.Reachable) (hquiet : engine.step? = none)
    (hf : engine.table.find? id = some session) (hruns : session.phase = .running)
    (hqueue : session.queue = []) (hkind : session.trigger.kind = .reactor)
    (hknown : (engine.world.player? session.player).isSome) {trigger : Trigger}
    (hkey : trigger.key = session.trigger.key) {operations : List Operation}
    (hadmitted : engine.admittedBy operations = []) {last : Operation}
    (hresumes : (engine.play operations).Resumes id last script)
    (hends : script.advance = (effects, .ended result))
    (hstill : ((engine.play (operations ++ [last])).world.player? session.player).isSome) :
    let ask := Command.trigger session.player trigger
    let queued := engine.play (.command ask :: (operations ++ [last]))
    let waited := engine.play (operations ++ [last] ++ [.command ask])
    queued = waited ∧ waited.isQuiet = true ∧
      (∀ before request after, operations ++ [last] = before ++ .command request :: after →
        ((engine.play (.command ask :: before)).perform request).2 =
          ((engine.play before).perform request).2) ∧
      (engine.perform ask).2 = .ok (.triggered (.queued engine.table.next)) ∧
      ((engine.play (operations ++ [last])).perform ask).2 =
        .ok (.triggered (.started engine.table.next)) := by
  intro ask queued waited
  have hfirst := hreach.perform_trigger_of_running hquiet hf hruns hknown hkey
  -- Until the last operation the session stays, with nothing behind it.
  let middle := engine.play operations
  have hmoves : Moves engine _ middle := engine.moves_play operations
  obtain ⟨later, hlater⟩ := hresumes.active
  obtain ⟨hplayer, htrigger, hsame⟩ := hreach.stays hf hadmitted hlater
  have haccepting : middle.accepting = true :=
    accepting_of_find?_play (hreach.accepting hf) hlater
  have hcalled := hreach.wf.table.called hf
  have hactive : (middle.table.find? id).isSome := Option.isSome_iff_exists.2 ⟨later, hlater⟩
  have hplayed : (engine.enqueue id trigger).play operations = middle.enqueue id trigger :=
    play_enqueue trigger hcalled hadmitted hactive
  -- The last operation ends it.
  have hlast : engine.play (operations ++ [last]) = middle.operate last := engine.play_append _ _
  obtain ⟨view, hview⟩ := Option.isSome_iff_exists.1 hstill
  rw [hlast] at hview
  obtain ⟨named, hnamed⟩ := Option.isSome_iff_exists.1 (hreach.bound hf)
  rw [← hkey] at hnamed
  have hbound : middle.registry.find? trigger.key = some named := by rw [registry_play, hnamed]
  obtain ⟨hnext, hfree, hends⟩ := operate_of_ends (quiet_play hquiet operations)
    (hmoves.wf hreach.wf) haccepting hlater (hsame.trans hqueue) hresumes hends hbound
    (hplayer ▸ hview)
  -- Asked only then, the trigger starts.
  have hsecond : (middle.operate last).perform ask =
      (((middle.operate last).startNext view trigger named).settle,
        .ok (.triggered (.started engine.table.next))) := by
    have hopen : (middle.operate last).accepting = true :=
      (middle.alike_operate hresumes.ne_shutdown).accepting.trans haccepting
    have hbar : (middle.operate last).barring? session.player trigger.kind = none := by
      rw [Trigger.kind, hkey, ← Trigger.kind, hkind]
      rfl
    have hstays : (middle.operate last).registry.find? trigger.key = some named := by
      rw [← hlast, registry_play, hnamed]
    rw [Session.slot, hplayer, htrigger, ← hkey] at hfree
    have hperform := perform_trigger_of_free hopen hfree hbar hstays hview
    rw [hnext, hreach.next_play hadmitted] at hperform
    exact hperform
  have hqueued : queued = (middle.enqueue id trigger).operate last := by
    show ((engine.perform ask).1).play (operations ++ [last]) = _
    rw [hfirst, play_append, hplayed]
    rfl
  have hwaited : waited = ((middle.operate last).perform ask).1 := by
    show engine.play (operations ++ [last] ++ [.command ask]) = _
    rw [play_append, hlast]
    rfl
  have hnone : engine.admittedBy (operations ++ [last]) = [] := by
    rw [admittedBy_append, hadmitted, admittedBy, hresumes.admissions_eq_nil]
    rfl
  refine ⟨?_, ?_, ?_, ?_, ?_⟩
  · rw [hqueued, hwaited, hends, hsecond]
  · rw [isQuiet, quiet_play hquiet]
    rfl
  · intro before request after hsplit
    show (((engine.perform ask).1.play before).perform request).2 = _
    rw [hfirst]
    exact answer_enqueue hcalled trigger hnone hactive hsplit
  · rw [hfirst]
  · rw [hlast, hsecond]

/-- A reactor that takes whoever touches it to another map, once it is released. -/
def lift : NamedScript := ⟨"lift", fun _ => .park (.changeMap ⟨6⟩)⟩

/-- The only player has touched the lift, which waits to be released. -/
def liftIsCalled : Engine :=
  (new (Registry.empty.insert (.reactor ⟨2⟩) lift)
    (World.empty.upsertPlayer ⟨⟨1⟩, "Ann", 30, ⟨5⟩⟩)).play
      [.command (.trigger ⟨1⟩ (.reactor ⟨2⟩ ⟨5⟩))]

/-- The player touches the lift again, before or after a reply that nobody waits for and the release
of the lift. -/
theorem queueing_is_waiting_lift :
    let ask := Command.trigger ⟨1⟩ (.reactor ⟨2⟩ ⟨5⟩)
    let meanwhile : List Operation :=
      [.command (.respond ⟨1⟩ .dismissed)] ++ [.release ⟨⟨1⟩, .reactor ⟨2⟩⟩]
    liftIsCalled.play (.command ask :: meanwhile) =
        liftIsCalled.play (meanwhile ++ [.command ask]) ∧
      (liftIsCalled.perform ask).2 = .ok (.triggered (.queued ⟨2⟩)) ∧
      ((liftIsCalled.play meanwhile).perform ask).2 = .ok (.triggered (.started ⟨2⟩)) := by
  intro ask meanwhile
  let session : Session := ⟨⟨1⟩, .reactor ⟨2⟩ ⟨5⟩, .running, []⟩
  have hresumes : (liftIsCalled.play [.command (.respond ⟨1⟩ .dismissed)]).Resumes ⟨1⟩
      (.release ⟨⟨1⟩, .reactor ⟨2⟩⟩) (.changeMap ⟨6⟩) :=
    @Resumes.released _ _ _ session ⟨⟨⟨1⟩, .reactor ⟨2⟩ ⟨5⟩⟩, .changeMap ⟨6⟩, true⟩ rfl rfl rfl
  obtain ⟨hsame, -, -, hqueued, hstarted⟩ := @queueing_is_waiting liftIsCalled ⟨1⟩ _ session
    [.changeMap ⟨6⟩ none] (.ok ()) (reachable_play _ _ _) rfl rfl rfl rfl rfl rfl
    (.reactor ⟨2⟩ ⟨5⟩) rfl [.command (.respond ⟨1⟩ .dismissed)] rfl _ hresumes rfl rfl
  exact ⟨hsame, hqueued, hstarted⟩

end Engine
end Encounter
