import Encounter.Proofs.Engine.Order
import Encounter.Proofs.Script.Error
import Encounter.Proofs.Script.Reach

/-!
# What a session does stands in its script

Replies reach a script only if its prompt accepts them. So whatever a session still has to do, be it
in its task, behind its prompt or in a notice, is what its script comes to by calls that succeed
(`Engine.Authored`), and an error that a session fails with is one that its script ends with by
itself.
-/

namespace Encounter

/-- Who a session acts for, and through which trigger. -/
def Session.origin (session : Session) : Origin := ⟨session.player, session.trigger⟩

/-- Who the session of a subject acts for, and through which trigger. -/
def Subject.origin (subject : Subject) : Origin := ⟨subject.player, subject.trigger⟩

/-- What is left to do when the notice is sent. -/
def Notice.rest : Notice → Script Unit
  | suspended _ prompt resume => .ask prompt resume
  | finished _ (.ok value) => .done value
  | finished _ (.error error) => .fail error

/-- The script that answers the trigger, started for that player, comes to `script`. -/
def Registry.Leads (registry : Registry) (origin : Origin) (script : Script Unit) : Prop :=
  ∃ named context, registry.find? origin.trigger.key = some named ∧
    context.trigger = origin.trigger ∧ context.player.id = origin.player ∧
    (named.run context).Reaches script

theorem Registry.Leads.trans {registry : Registry} {origin : Origin} {script last : Script Unit}
    (h : registry.Leads origin script) (h' : script.Reaches last) : registry.Leads origin last := by
  obtain ⟨named, context, hfound, htrigger, hplayer, hreaches⟩ := h
  exact ⟨named, context, hfound, htrigger, hplayer, hreaches.trans h'⟩

namespace Engine

/-- Whatever sessions still have to do stands in their scripts, and so do the errors that they
failed with. -/
structure Authored (engine : Engine) : Prop where
  task : ∀ id task, engine.tasks.find? id = some task →
    engine.registry.Leads task.origin task.script
  phase : ∀ id session, engine.table.find? id = some session →
    ∀ prompt resume, session.phase = .suspended prompt resume →
      engine.registry.Leads session.origin (.ask prompt resume)
  notice : ∀ notice ∈ engine.notices, ∀ session,
    engine.table.find? notice.session = some session →
      engine.registry.Leads session.origin notice.rest
  failed : ∀ subject message, ⟨subject, .ended (.failed message)⟩ ∈ engine.log →
    ∃ error, error.message = message ∧ engine.registry.Leads subject.origin (.fail error)

variable {engine next : Engine}

/-- Where sessions only go on as before or leave, tasks and notices only go, and every failure is
authored, nothing that is left to do is new. -/
theorem Authored.keep (h : engine.Authored) (hregistry : next.registry = engine.registry)
    (htasks : ∀ id task, next.tasks.find? id = some task → engine.tasks.find? id = some task)
    (hsessions : ∀ id session, next.table.find? id = some session →
      ∃ old, engine.table.find? id = some old ∧ old.origin = session.origin ∧
        old.phase = session.phase)
    (hnotices : ∀ notice ∈ next.notices, notice ∈ engine.notices)
    (hlog : ∀ subject message, ⟨subject, .ended (.failed message)⟩ ∈ next.log →
      ⟨subject, .ended (.failed message)⟩ ∈ engine.log ∨
        ∃ error, error.message = message ∧ engine.registry.Leads subject.origin (.fail error)) :
    next.Authored := by
  refine ⟨?_, ?_, ?_, ?_⟩ <;> rw [hregistry]
  · intro id task ht
    exact h.task id task (htasks id task ht)
  · intro id session hf prompt resume hp
    obtain ⟨old, hold, horigin, hphase⟩ := hsessions id session hf
    rw [← horigin]
    exact h.phase id old hold prompt resume (hphase.trans hp)
  · intro notice hn session hf
    obtain ⟨old, hold, horigin, -⟩ := hsessions _ session hf
    rw [← horigin]
    exact h.notice notice (hnotices notice hn) old hold
  · intro subject message hm
    exact (hlog subject message hm).elim (h.failed subject message) id

/-- A session starts with its script, under a number about which no notice waits. -/
theorem Authored.start (h : engine.Authored) {id : SessionId} (hpending : engine.pending id = 0)
    {view : PlayerView} {trigger : Trigger} {script : NamedScript}
    (hscript : engine.registry.find? trigger.key = some script) (queue : List QueuedTrigger) :
    (engine.start id view trigger script queue).Authored := by
  have hfind : ∀ other, (engine.start id view trigger script queue).table.find? other =
      if other = id then some ⟨view.id, trigger, .running, queue⟩
      else engine.table.find? other := by
    intro other
    rw [table_start, SessionTable.find?_add]
  refine ⟨?_, ?_, ?_, ?_⟩
  · intro other task ht
    have ht := (Table.find?_insert _ _ _ _).symm.trans ht
    split at ht
    · cases ht
      exact ⟨script, _, hscript, rfl, rfl, .refl _⟩
    · exact h.task other task ht
  · intro other session hf prompt resume hp
    rw [hfind] at hf
    split at hf
    · cases hf
      cases hp
    · exact h.phase other session hf prompt resume hp
  · intro notice hn session hf
    have hne : notice.session ≠ id := by
      intro he
      have hpos : 0 < engine.pending id :=
        List.countP_pos_iff.2 ⟨notice, hn, decide_eq_true he⟩
      omega
    rw [hfind, if_neg hne] at hf
    exact h.notice notice hn session hf
  · intro subject message hm
    rcases List.mem_append.1 hm with hm | hm
    · exact h.failed subject message hm
    · simp at hm

theorem Authored.enqueue (h : engine.Authored) (id : SessionId) (trigger : Trigger) :
    (engine.enqueue id trigger).Authored := by
  apply h.keep
  · rfl
  · exact fun _ _ ht => ht
  · intro other session hf
    have hf := (SessionTable.find?_enqueue _ _ _ _).symm.trans hf
    split at hf
    · next he =>
      obtain ⟨old, hold, rfl⟩ := Option.map_eq_some_iff.1 hf
      exact ⟨old, he ▸ hold, rfl, rfl⟩
    · exact ⟨session, hf, rfl, rfl⟩
  · exact fun _ hn => hn
  · exact fun _ _ hm => .inl hm

/-- A session that is cut off does not fail. -/
theorem Authored.cancel (h : engine.Authored) (id : SessionId) (reason : CancelReason) :
    (engine.cancel id reason).Authored := by
  cases hf : engine.table.find? id with
  | none =>
    rw [cancel_of_find?_eq_none hf]
    exact h
  | some session =>
    apply h.keep
    · exact (engine.alike_cancel id reason).registry
    · intro other task ht
      rw [tasks_cancel hf, Table.find?_erase] at ht
      split at ht
      · cases ht
      · exact ht
    · intro other found ho
      rw [find?_cancel] at ho
      split at ho
      · cases ho
      · exact ⟨found, ho, rfl, rfl⟩
    · intro notice hn
      rw [notices_cancel] at hn
      exact hn
    · intro subject message hm
      rw [Engine.cancel, hf] at hm
      rcases List.mem_append.1 hm with hm | hm
      · exact .inl hm
      · simp at hm

theorem Authored.cancelEach (h : engine.Authored) (ids : List SessionId) (reason : CancelReason) :
    (engine.cancelEach ids reason).Authored := by
  induction ids generalizing engine with
  | nil => exact h
  | cons id ids ih => exact ih (h.cancel id reason)

/-- A session that gets an accepted reply goes on with it. -/
theorem Authored.resume (h : engine.Authored) {id : SessionId} {session : Session}
    (hf : engine.table.find? id = some session) {script : Script Unit}
    (hscript : engine.registry.Leads session.origin script) :
    (engine.resume id session script).Authored := by
  have hfind : ∀ other, (engine.resume id session script).table.find? other =
      if other = id then some { session with phase := .running }
      else engine.table.find? other := by
    intro other
    refine (SessionTable.find?_setPhase _ _ _ _).trans ?_
    rw [hf, Option.map_some]
  refine ⟨?_, ?_, ?_, h.failed⟩
  · intro other task ht
    have ht := (Table.find?_insert _ _ _ _).symm.trans ht
    split at ht
    · cases ht
      exact hscript
    · exact h.task other task ht
  · intro other found ho prompt resume hp
    rw [hfind] at ho
    split at ho
    · cases ho
      cases hp
    · exact h.phase other found ho prompt resume hp
  · intro notice hn found ho
    rw [hfind] at ho
    split at ho
    · next he =>
      cases ho
      exact h.notice notice hn session (he ▸ hf)
    · exact h.notice notice hn found ho

/-- The notices that are left are no more than those that waited. -/
theorem Authored.drop (h : engine.Authored) {notice : Notice} {rest : List Notice}
    (hn : engine.notices = notice :: rest) : Authored { engine with notices := rest } := by
  apply h.keep
  · rfl
  · exact fun _ _ ht => ht
  · exact fun _ session hf => ⟨session, hf, rfl, rfl⟩
  · intro other ho
    rw [hn]
    exact List.mem_cons_of_mem _ ho
  · exact fun _ _ hm => .inl hm

/-- A session shows the prompt that its script asks with. -/
theorem Authored.suspend (h : engine.Authored) {id : SessionId} {prompt : Prompt}
    {resume : prompt.kind.Answer → Script Unit}
    (hscript : ∀ session, engine.table.find? id = some session →
      engine.registry.Leads session.origin (.ask prompt resume)) :
    (engine.suspend id prompt resume).Authored := by
  cases hf : engine.table.find? id with
  | none =>
    rw [suspend_of_find?_eq_none hf]
    exact h
  | some session =>
    obtain ⟨-, he⟩ | ⟨-, he⟩ := suspend_cases hf prompt resume
    · have hfind : ∀ other, (engine.await id session prompt resume).table.find? other =
          if other = id then some { session with phase := .suspended prompt resume }
          else engine.table.find? other := by
        intro other
        refine (SessionTable.find?_setPhase _ _ _ _).trans ?_
        rw [hf, Option.map_some]
      rw [he]
      refine ⟨h.task, ?_, ?_, ?_⟩
      · intro other found ho shown next hp
        rw [hfind] at ho
        split at ho
        · cases ho
          cases hp
          exact hscript session hf
        · exact h.phase other found ho shown next hp
      · intro notice hn found ho
        rw [hfind] at ho
        split at ho
        · next hid =>
          cases ho
          exact h.notice notice hn session (hid ▸ hf)
        · exact h.notice notice hn found ho
      · intro subject message hm
        rcases List.mem_append.1 hm with hm | hm
        · exact h.failed subject message hm
        · simp at hm
    · rw [he]
      exact h.cancel id _

/-- A session that fails does so with an error of its script. -/
theorem Authored.conclude (h : engine.Authored) {id : SessionId} {session : Session}
    {result : Except ScriptError Unit}
    (hscript : engine.registry.Leads session.origin (Notice.finished id result).rest) :
    (engine.conclude id session (.ofResult result)).Authored := by
  apply h.keep
  · rfl
  · exact fun _ _ ht => ht
  · intro other found ho
    rw [table_conclude, SessionTable.find?_remove] at ho
    split at ho
    · cases ho
    · exact ⟨found, ho, rfl, rfl⟩
  · exact fun _ hn => hn
  · intro subject message hm
    rcases List.mem_append.1 hm with hm | hm
    · exact .inl hm
    · refine .inr ?_
      obtain ⟨rfl, hout⟩ := by simpa using hm
      cases result with
      | ok value => cases hout
      | error error =>
        cases error <;> cases hout <;> exact ⟨_, rfl, hscript⟩

/-- A session that ends does so with its script, and the first trigger behind it starts with the
script of its own. -/
theorem Authored.finish (h : engine.Authored) (hwf : engine.WF) {id : SessionId}
    {result : Except ScriptError Unit}
    (hscript : ∀ session, engine.table.find? id = some session →
      engine.registry.Leads session.origin (Notice.finished id result).rest) :
    (engine.finish id result).Authored := by
  cases hf : engine.table.find? id with
  | none =>
    rw [finish_of_find?_eq_none hf]
    exact h
  | some session =>
    have hconclude := h.conclude (hscript session hf)
    obtain ⟨first, others, script, view, hqueue, hfound, -, he⟩ | ⟨-, he⟩ := finish_cases hf result
    · rw [he]
      apply hconclude.start _ hfound
      apply hwf.pending_eq_zero
      exact SessionTable.not_called_of_mem_queue hf (by simp [hqueue])
    · rw [he]
      exact hconclude

/-- A task that stops leaves a notice with what is left of its script. -/
theorem Authored.send (h : engine.Authored) {id : SessionId} {notice : Notice}
    (hregistry : next.registry = engine.registry) (htable : next.table = engine.table)
    (htasks : next.tasks = engine.tasks.erase id)
    (hnotices : next.notices = engine.notices ++ [notice])
    (hlog : ∀ subject message, ⟨subject, .ended (.failed message)⟩ ∈ next.log →
      ⟨subject, .ended (.failed message)⟩ ∈ engine.log)
    (hscript : ∀ session, engine.table.find? notice.session = some session →
      engine.registry.Leads session.origin notice.rest) : next.Authored := by
  refine ⟨?_, ?_, ?_, ?_⟩ <;> rw [hregistry]
  · intro other task ht
    rw [htasks, Table.find?_erase] at ht
    split at ht
    · cases ht
    · exact h.task other task ht
  · rw [htable]
    exact h.phase
  · intro other ho session hf
    rw [htable] at hf
    rw [hnotices] at ho
    rcases List.mem_append.1 ho with ho | ho
    · exact h.notice other ho session hf
    · rw [List.mem_singleton.1 ho] at hf ⊢
      exact hscript session hf
  · exact fun subject message hm => h.failed subject message (hlog subject message hm)

/-- A task runs its script to the next stop. -/
theorem Authored.poll (h : engine.Authored) (hwf : engine.WF) {id : SessionId} {task : Task}
    (ht : engine.tasks.find? id = some task) : (engine.poll id task).Authored := by
  have hregistry := (engine.alike_poll id task).registry
  have hlog : ∀ subject message, ⟨subject, .ended (.failed message)⟩ ∈ (engine.poll id task).log →
      ⟨subject, .ended (.failed message)⟩ ∈ engine.log := by
    intro subject message hm
    rw [log_poll] at hm
    rcases List.mem_append.1 hm with hm | hm
    · exact hm
    · simp at hm
  -- The session of the task is the one that the notice is about.
  have hown : ∀ script, engine.registry.Leads task.origin script → ∀ session,
      engine.table.find? id = some session → engine.registry.Leads session.origin script := by
    intro script hleads session hf
    obtain ⟨found, hfound, -, horigin, -⟩ := (hwf.fits id).task task ht
    rw [hf] at hfound
    cases hfound
    rw [Session.origin, ← horigin]
    exact hleads
  cases hstop : task.script.advance with
  | mk effects stop =>
    have hrest := (h.task id task ht).trans (Script.reaches_of_advance hstop)
    cases stop with
    | ended result =>
      have hpoll := poll_of_ended hstop engine id
      refine h.send hregistry (table_poll _ _ _) (congrArg tasks hpoll) (congrArg notices hpoll)
        hlog (hown _ ?_)
      cases result <;> exact hrest
    | asking prompt resume =>
      have hpoll := poll_of_asking hstop engine id
      exact h.send hregistry (table_poll _ _ _) (congrArg tasks hpoll) (congrArg notices hpoll) hlog
        (hown _ hrest)
    | parked rest =>
      have hpoll := poll_of_parked hstop engine id
      refine ⟨?_, ?_, ?_, ?_⟩ <;> rw [hregistry]
      · intro other found ho
        rw [congrArg tasks hpoll] at ho
        have ho := (Table.find?_insert _ _ _ _).symm.trans ho
        split at ho
        · cases ho
          exact hrest.trans (.park (.refl rest))
        · exact h.task other found ho
      · rw [table_poll]
        exact h.phase
      · rw [table_poll, congrArg notices hpoll]
        exact h.notice
      · exact fun subject message hm => h.failed subject message (hlog subject message hm)

/-! ## Commands and acts -/

theorem Authored.handle (h : engine.Authored) (hwf : engine.WF) (command : Command) :
    (engine.handle command).1.Authored := by
  have hh := engine.handled command
  generalize (engine.handle command).1 = next at hh ⊢
  cases hh with
  | unchanged => exact h
  | started bound free unbarred known =>
    have hallocated : Authored { engine with table := engine.table.allocate } :=
      ⟨h.task, h.phase, h.notice, h.failed⟩
    exact hallocated.start (hwf.pending_eq_zero engine.table.not_called_next) bound []
  | queued => exact h.enqueue _ _
  | resumed waiting asks fits =>
    have hf := (SessionTable.of_suspendedOf?_eq_some waiting).1
    have hscript := h.phase _ _ hf _ _ asks
    exact h.resume hf (hscript.trans ((Script.Reaches.refl _).answered fits))
  | left => exact h.cancelEach _ _
  | strayed => exact h.cancel _ _
  | closed =>
    have hcut := h.cancelEach engine.table.ids .shutdown
    exact ⟨hcut.task, hcut.phase, hcut.notice, hcut.failed⟩

/-- An act that takes the oldest notice, if any, brings nothing that is not in a script. -/
theorem Authored.act (h : engine.Authored) (hwf : engine.WF) {act : Act} (ht : engine.Takes act) :
    (engine.act act).Authored := by
  cases act with
  | command command => exact h.handle hwf command
  | notice notice rest =>
    have hdrop := h.drop ht
    have hnotice := h.notice notice (by rw [show engine.notices = _ from ht]; simp)
    cases notice with
    | suspended id prompt resume => exact hdrop.suspend hnotice
    | finished id result => exact hdrop.finish ((Move.dropped ht).wf hwf) hnotice
  | poll id =>
    unfold Engine.act
    dsimp only
    cases hfound : engine.tasks.find? id with
    | none => exact h
    | some task => exact h.poll hwf hfound
  | unpark id =>
    refine ⟨?_, h.phase, h.notice, h.failed⟩
    intro other task hfound
    have hfound := (Table.find?_modify _ _ _ _).symm.trans hfound
    split at hfound
    · obtain ⟨old, hold, rfl⟩ := Option.map_eq_some_iff.1 hfound
      exact h.task id old hold
    · exact h.task other task hfound
  | edit edit => exact ⟨h.task, h.phase, h.notice, h.failed⟩

/-- With notices in order, whatever sessions have to do stands in their scripts. -/
theorem authored_after {registry : Registry} {world : World} {acts : List Act}
    (h : (new registry world).InOrder acts) : ((new registry world).after acts).Authored := by
  apply inOrder_induction h (wf_new registry world)
  · refine ⟨?_, ?_, ?_, ?_⟩
    · exact fun id task ht => absurd ht (by simp [new])
    · exact fun id session hf => absurd hf (by simp [new])
    · simp [new]
    · simp [new]
  · exact fun engine act hwf ht ha => ha.act hwf ht

/-- A prompt accepts just the replies that the call that shows it can use. So in every run in which
notices arrive in the order in which they were sent, a reply that is accepted makes the call succeed
and the script goes on with its value; and a session fails with no other error than one that its
script ends with by itself, which is reached from call to call by replies that the calls can use. -/
theorem calls_succeed (registry : Registry) (world : World) (acts : List Act)
    (horder : (new registry world).InOrder acts) :
    (∀ (prompt : Prompt) (reply : Reply), prompt.accepts reply = true ↔
      ∃ value, (prompt.call.replay [reply]).result = .ok value) ∧
    let engine := (new registry world).after acts
    (∀ player reply, (engine.respond player reply).2 = .ok () →
      ∃ id session prompt resume value,
        engine.table.find? id = some session ∧ session.player = player ∧
        session.phase = .suspended prompt resume ∧
        (prompt.call.replay [reply]).result = .ok value ∧
        (engine.respond player reply).1.tasks.find? id =
          some ⟨session.origin, resume value, false⟩) ∧
    (∀ subject error, ⟨subject, .ended (.failed (ScriptError.message error))⟩ ∈ engine.log →
      ∃ named context, registry.find? subject.trigger.key = some named ∧
        context.trigger = subject.trigger ∧ context.player.id = subject.player ∧
        (named.run context).Reaches (.fail error)) := by
  refine ⟨?_, ?_, ?_⟩
  · intro prompt reply
    rw [prompt.result_call, prompt.accepts_iff_read]
  · intro player reply hok
    obtain ⟨id, session, prompt, resume, hs, hphase, haccepts, he⟩ | ⟨error, he⟩ :=
      ((new registry world).after acts).respond_cases player reply
    · obtain ⟨hf, hp, -⟩ := SessionTable.of_suspendedOf?_eq_some hs
      obtain ⟨value, hread⟩ := (prompt.accepts_iff_read reply).1 haccepts
      refine ⟨id, session, prompt, resume, value, hf, hp, hphase, ?_, ?_⟩
      · rw [prompt.result_call, hread]
      · rw [he, Script.answer, hread]
        exact Table.find?_insert_self _ _ _
    · rw [he] at hok
      cases hok
  · intro subject error hm
    have hregistry := (new registry world).registry_after acts
    obtain ⟨found, hmessage, hleads⟩ := (authored_after horder).failed subject _ hm
    rw [ScriptError.eq_of_message hmessage, hregistry] at hleads
    exact hleads

/-- A menu with one link; whatever is chosen, the script fails by itself with the error for a link
that the menu does not have. -/
def sulk : NamedScript :=
  ⟨"sulk", fun _ => .ask ⟨.askMenu, "#L0#Stay#l"⟩ fun _ => .fail (.selectionOutOfRange 7)⟩

/-- An engine with that menu and one player. -/
def sulkEngine : Engine :=
  new (Registry.empty.insert (.npc ⟨1⟩) sulk) (World.empty.upsertPlayer ⟨⟨1⟩, "Ann", 30, ⟨5⟩⟩)

/-- A choice that the menu does not have is refused, and one that it has is accepted. The error that
the session then fails with stands in its script. -/
theorem calls_succeed_sulk :
    let happened := sulkEngine.play [.command (.trigger ⟨1⟩ (.npc ⟨1⟩ ⟨5⟩)),
      .command (.respond ⟨1⟩ (.selection 7)), .command (.respond ⟨1⟩ (.selection 0))]
    ⟨⟨⟨1⟩, ⟨1⟩, .npc ⟨1⟩ ⟨5⟩⟩, .ended (.failed (ScriptError.message (.selectionOutOfRange 7)))⟩ ∈
        happened.log ∧
      ∃ named context, sulkEngine.registry.find? (.npc ⟨1⟩) = some named ∧
        context.trigger = .npc ⟨1⟩ ⟨5⟩ ∧ context.player.id = ⟨1⟩ ∧
        (named.run context).Reaches (.fail (.selectionOutOfRange 7)) := by
  intro happened
  have hlog : ⟨⟨⟨1⟩, ⟨1⟩, .npc ⟨1⟩ ⟨5⟩⟩,
      .ended (.failed (ScriptError.message (.selectionOutOfRange 7)))⟩ ∈ happened.log := by
    decide +kernel
  obtain ⟨acts, horder, hafter⟩ := sulkEngine.exists_acts_play
    [.command (.trigger ⟨1⟩ (.npc ⟨1⟩ ⟨5⟩)), .command (.respond ⟨1⟩ (.selection 7)),
      .command (.respond ⟨1⟩ (.selection 0))]
  obtain ⟨-, -, hfailed⟩ := calls_succeed _ _ acts horder
  refine ⟨hlog, hfailed ⟨⟨1⟩, ⟨1⟩, .npc ⟨1⟩ ⟨5⟩⟩ (.selectionOutOfRange 7) ?_⟩
  rw [show (new _ _).after acts = happened from hafter]
  exact hlog

end Engine
end Encounter
