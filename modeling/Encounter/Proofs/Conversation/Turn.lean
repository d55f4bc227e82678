import Encounter.Proofs.Engine.Standing
import Encounter.Proofs.Script.Replay

/-!
# One turn of a conversation

While only one task can run, the engine comes to rest just where that task stops: its effects are
carried out, and then its session ends or shows a prompt. All other sessions stay as they are.
-/

namespace Encounter

/-- What happened to a subject, as events. -/
def Subject.events (subject : Subject) (happenings : List Happening) : List Event :=
  happenings.map (Event.mk subject)

/-- The session of a subject, with nothing queued behind it. -/
def Subject.inPhase (subject : Subject) (phase : Phase) : Session :=
  ⟨subject.player, subject.trigger, phase, []⟩

@[simp] theorem Subject.player_inPhase (subject : Subject) (phase : Phase) :
    (subject.inPhase phase).player = subject.player := rfl

namespace Engine

/-- The events of a session, in the order in which they were published. -/
def eventsOf (engine : Engine) (id : SessionId) : List Event :=
  engine.log.filter fun event => event.session = id

/-- The task of the session is the only one that can run, and no notice waits. -/
structure HasTurn (engine : Engine) (subject : Subject) (script : Script Unit) : Prop where
  notices : engine.notices = []
  task : engine.tasks.find? subject.session =
    some ⟨⟨subject.player, subject.trigger⟩, script, false⟩
  parked : ∀ other task, other ≠ subject.session → engine.tasks.find? other = some task →
    task.parked = true

/-- The session is the only one of its player, nothing is queued behind it, and its task is the only
one that can run. -/
structure Ready (engine : Engine) (subject : Subject) (script : Script Unit) : Prop where
  accepting : engine.accepting = true
  notices : engine.notices = []
  task : engine.tasks.find? subject.session =
    some ⟨⟨subject.player, subject.trigger⟩, script, false⟩
  parked : ∀ other task, other ≠ subject.session → engine.tasks.find? other = some task →
    task.parked = true
  session : engine.table.find? subject.session =
    some (subject.inPhase .running)
  alone : ∀ other session, engine.table.find? other = some session →
    session.player = subject.player → other = subject.session

/-- The engine is quiet, and the player of the subject has no other session. -/
structure Solo (engine : Engine) (subject : Subject) : Prop where
  accepting : engine.accepting = true
  quiet : engine.step? = none
  alone : ∀ other session, engine.table.find? other = some session →
    session.player = subject.player → other = subject.session

/-- The engine rests where the script stops: the session ended, or it waits on the prompt. Since
`before` it had the effects up to there. -/
inductive Rests (engine : Engine) (subject : Subject) (before : List Event) (script : Script Unit) :
    Prop where
  | ended {effects : List Effect} {result : Except ScriptError Unit}
      (stop : script.advance = (effects, .ended result))
      (gone : engine.table.find? subject.session = none)
      (events : engine.eventsOf subject.session =
        before ++ subject.events (effects.map .effected ++ [.ended (.ofResult result)]))
  | waiting {effects : List Effect} {prompt : Prompt} {next : prompt.kind.Answer → Script Unit}
      (stop : script.advance = (effects, .asking prompt next))
      (found : engine.table.find? subject.session =
        some (subject.inPhase (.suspended prompt next)))
      (events : engine.eventsOf subject.session =
        before ++ subject.events (effects.map .effected ++ [.prompted prompt]))

variable {engine : Engine} {subject : Subject} {script : Script Unit} {effects : List Effect}

/-- The task of the session is the one that runs next. -/
theorem HasTurn.step? (h : HasTurn engine subject script) :
    engine.step? = some (engine.poll subject.session
      ⟨⟨subject.player, subject.trigger⟩, script, false⟩) := by
  have hready : engine.readyTask? =
      some (subject.session, ⟨⟨subject.player, subject.trigger⟩, script, false⟩) := by
    cases hr : engine.readyTask? with
    | none =>
      have hnone := List.find?_eq_none.1 hr _ (Table.find?_eq_some_iff.1 h.task)
      exact absurd rfl hnone
    | some entry =>
      obtain ⟨id, task⟩ := entry
      obtain ⟨ht, hp⟩ := of_readyTask?_eq_some hr
      by_cases hid : id = subject.session
      · subst hid
        rw [h.task] at ht
        cases ht
        rfl
      · rw [h.parked id task hid ht] at hp
        cases hp
  unfold Engine.step?
  rw [h.notices, hready]
  rfl

/-- Without its task the engine is quiet. -/
theorem HasTurn.step?_eq_none (h : HasTurn engine subject script) {next : Engine}
    (hnotices : next.notices = engine.notices)
    (htasks : next.tasks = engine.tasks.erase subject.session) : next.step? = none := by
  rw [step?_eq_none_iff, hnotices, htasks]
  refine ⟨h.notices, ?_⟩
  intro id task ht
  rw [Table.find?_erase] at ht
  split at ht
  · cases ht
  · next hne => exact h.parked id task hne ht

/-- A quiet engine gives the turn to the session that goes on. -/
theorem hasTurn_resume (hquiet : engine.step? = none) (id : SessionId) (session : Session)
    (script : Script Unit) :
    HasTurn (engine.resume id session script) ⟨id, session.player, session.trigger⟩ script := by
  obtain ⟨hnotices, hparked⟩ := step?_eq_none_iff.1 hquiet
  refine ⟨hnotices, Table.find?_insert_self _ _ _, ?_⟩
  intro other task hne ht
  apply hparked other task
  exact ((Table.find?_insert _ _ _ _).trans (if_neg hne)).symm.trans ht

/-- A session that starts has its turn in a quiet engine. -/
theorem hasTurn_startNext (hquiet : engine.step? = none) (view : PlayerView) (trigger : Trigger)
    (script : NamedScript) :
    HasTurn (engine.startNext view trigger script) ⟨engine.table.next, view.id, trigger⟩
      (script.run (engine.contextOf view trigger)) := by
  obtain ⟨hnotices, hparked⟩ := step?_eq_none_iff.1 hquiet
  refine ⟨hnotices, Table.find?_insert_self _ _ _, ?_⟩
  intro other task hne ht
  apply hparked other task
  exact ((Table.find?_insert _ _ _ _).trans (if_neg hne)).symm.trans ht

private theorem Ready.hasTurn (h : Ready engine subject script) : HasTurn engine subject script :=
  ⟨h.notices, h.task, h.parked⟩

/-- No dialogue of the player is open while the only session runs. -/
theorem Ready.suspendedOf? (h : Ready engine subject script) :
    engine.table.suspendedOf? subject.player = none := by
  rw [SessionTable.suspendedOf?_eq_none_iff]
  intro id session hf hp
  have hid := h.alone id session hf hp
  rw [hid, h.session] at hf
  cases hf
  rfl

/-- The engine after the effects, without the task. -/
def taskDone (engine : Engine) (subject : Subject) (effects : List Effect) : Engine :=
  { engine.afterEffects subject.session ⟨subject.player, subject.trigger⟩ effects with
    tasks := engine.tasks.erase subject.session }

/-- A single notice is handled next. -/
private theorem settle_of_notice {engine : Engine} (h : engine.notices = []) (notice : Notice) :
    ({ engine with notices := [notice] } : Engine).settle = (engine.receive notice).settle := by
  have hstep : ({ engine with notices := [notice] } : Engine).step? =
      some (({ engine with notices := [] } : Engine).receive notice) := rfl
  have hpopped : ({ engine with notices := [] } : Engine) = engine := by
    rw [← h]
  rw [settle_of_step? hstep, hpopped]

/-- A script that ends has its session finished. -/
theorem HasTurn.settle_of_ended {result : Except ScriptError Unit}
    (h : HasTurn engine subject script) (hstop : script.advance = (effects, .ended result)) :
    engine.settle =
      ((engine.taskDone subject effects).finish subject.session result).settle := by
  have hnotices : (engine.taskDone subject effects).notices = [] := h.notices
  rw [settle_of_step? h.step?, poll_of_ended hstop, h.notices]
  exact settle_of_notice hnotices (.finished subject.session result)

/-- A script that asks has its prompt offered. -/
theorem HasTurn.settle_of_asking {prompt : Prompt} {next : prompt.kind.Answer → Script Unit}
    (h : HasTurn engine subject script)
    (hstop : script.advance = (effects, .asking prompt next)) :
    engine.settle =
      ((engine.taskDone subject effects).suspend subject.session prompt next).settle := by
  have hnotices : (engine.taskDone subject effects).notices = [] := h.notices
  rw [settle_of_step? h.step?, poll_of_asking hstop, h.notices]
  exact settle_of_notice hnotices (.suspended subject.session prompt next)

/-- A script that asks has its prompt shown. -/
theorem Ready.settle_of_asking {prompt : Prompt} {next : prompt.kind.Answer → Script Unit}
    (h : Ready engine subject script) (hstop : script.advance = (effects, .asking prompt next)) :
    engine.settle = (engine.taskDone subject effects).await subject.session
      (subject.inPhase .running) prompt next := by
  have hfound : (engine.taskDone subject effects).table.find? subject.session = _ := h.session
  have hnone : (engine.taskDone subject effects).table.suspendedOf? subject.player = none :=
    h.suspendedOf?
  have hsuspend : (engine.taskDone subject effects).suspend subject.session prompt next =
      (engine.taskDone subject effects).await subject.session
        (subject.inPhase .running) prompt next := by
    obtain ⟨-, he⟩ | ⟨hopen, -⟩ := suspend_cases hfound prompt next
    · exact he
    · rw [Subject.player_inPhase, hnone] at hopen
      cases hopen
  rw [h.hasTurn.settle_of_asking hstop, hsuspend]
  exact settle_of_quiet (h.hasTurn.step?_eq_none rfl rfl)

/-- A script that ends has its session concluded, and nothing follows in its place. -/
theorem Ready.settle_of_ended {result : Except ScriptError Unit}
    (h : Ready engine subject script) (hstop : script.advance = (effects, .ended result)) :
    engine.settle = (engine.taskDone subject effects).conclude subject.session
      (subject.inPhase .running) (.ofResult result) := by
  have hfound : (engine.taskDone subject effects).table.find? subject.session = _ := h.session
  rw [h.hasTurn.settle_of_ended hstop, finish_of_queue_nil hfound rfl]
  exact settle_of_quiet (h.hasTurn.step?_eq_none rfl rfl)

/-- What happens to a subject goes to the end of its events. -/
theorem eventsOf_append {next : Engine} {happenings : List Happening}
    (h : next.log = engine.log ++ subject.events happenings) :
    next.eventsOf subject.session =
      engine.eventsOf subject.session ++ subject.events happenings := by
  have hall : (subject.events happenings).filter (fun event => event.session = subject.session) =
      subject.events happenings := by
    rw [List.filter_eq_self]
    intro event hm
    obtain ⟨happening, -, rfl⟩ := List.mem_map.1 hm
    exact decide_eq_true rfl
  rw [eventsOf, h, List.filter_append, hall]
  rfl

/-- The effects of the task and what it led to, as the log has them. -/
private theorem log_taskDone_append (engine : Engine) (subject : Subject) (effects : List Effect)
    (happening : Happening) :
    (engine.taskDone subject effects).log ++ [⟨subject, happening⟩] =
      engine.log ++ subject.events (effects.map .effected ++ [happening]) := by
  unfold taskDone afterEffects Subject.events
  rw [List.map_append, List.map_map, List.append_assoc]
  rfl

private theorem Ready.rests_of_ended {result : Except ScriptError Unit}
    (h : Ready engine subject script) (hstop : script.advance = (effects, .ended result)) :
    Solo engine.settle subject ∧
      Rests engine.settle subject (engine.eventsOf subject.session) script := by
  have hsettle := h.settle_of_ended hstop
  have hfind : ∀ other, engine.settle.table.find? other =
      if other = subject.session then none else engine.table.find? other := by
    intro other
    rw [hsettle]
    exact engine.table.find?_remove _ _ _
  refine ⟨⟨?_, step?_settle engine, ?_⟩, .ended hstop ?_ (eventsOf_append ?_)⟩
  · exact engine.alike_settle.accepting.trans h.accepting
  · intro other session hf hp
    rw [hfind] at hf
    split at hf
    · cases hf
    · exact h.alone other session hf hp
  · rw [hfind, if_pos rfl]
  · rw [hsettle]
    exact engine.log_taskDone_append subject effects _

private theorem Ready.rests_of_asking {prompt : Prompt} {next : prompt.kind.Answer → Script Unit}
    (h : Ready engine subject script) (hstop : script.advance = (effects, .asking prompt next)) :
    Solo engine.settle subject ∧
      Rests engine.settle subject (engine.eventsOf subject.session) script := by
  have hsettle := h.settle_of_asking hstop
  have hfind : ∀ other, engine.settle.table.find? other =
      if other = subject.session then
        some (subject.inPhase (.suspended prompt next))
      else engine.table.find? other := by
    intro other
    rw [hsettle]
    refine (engine.table.find?_setPhase _ _ _).trans ?_
    rw [h.session]
    rfl
  refine ⟨⟨?_, step?_settle engine, ?_⟩, .waiting hstop ?_ (eventsOf_append ?_)⟩
  · exact engine.alike_settle.accepting.trans h.accepting
  · intro other session hf hp
    rw [hfind] at hf
    split at hf
    · next he => exact he
    · exact h.alone other session hf hp
  · rw [hfind, if_pos rfl]
  · rw [hsettle]
    exact engine.log_taskDone_append subject effects _

/-- After its turn the engine rests where the script stops. -/
theorem Ready.rests (h : Ready engine subject script) (hs : script.NeverParks) :
    Solo engine.settle subject ∧
      Rests engine.settle subject (engine.eventsOf subject.session) script := by
  obtain ⟨effects, result, hstop⟩ | ⟨effects, prompt, next, hstop⟩ := hs.advance_cases
  · exact h.rests_of_ended hstop
  · exact h.rests_of_asking hstop

end Engine
end Encounter
