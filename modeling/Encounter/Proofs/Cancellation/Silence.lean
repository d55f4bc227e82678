import Encounter.Proofs.Cancellation.Exact
import Encounter.Proofs.Chronicle.Faithful
import Encounter.Proofs.Conversation.Exclusive
import Encounter.Proofs.Conversation.Turn

/-!
# Silence after the cut

A number that had its turn and has neither session nor task is out of the game: notices about it may
still arrive, in whatever order, but nothing is published under it any more. The sessions that a
command cuts off are so at once, and so are the triggers that waited behind them. With what a command
cuts off (`Engine.Cuts`) this makes cancellation exact (`Engine.cancellation_exact`).
-/

namespace Encounter
namespace Engine

variable {engine next : Engine} {notes : List Entry} {id : SessionId} {ids : List SessionId}
variable {reason : CancelReason} {command : Command}

/-- The number had its turn, and neither a session nor a task has it. -/
structure Retired (engine : Engine) (id : SessionId) : Prop where
  called : engine.table.Called id
  session : engine.table.find? id = none
  task : engine.tasks.find? id = none

/-- The events that moves publish under a number are those among their notes. -/
theorem Moves.eventsOf (h : Moves engine notes next) (id : SessionId) :
    next.eventsOf id = engine.eventsOf id ++ (notesOf id notes).filterMap Entry.event? := by
  rw [filterMap_notesOf]
  unfold Engine.eventsOf
  rw [h.log, List.filter_append]

/-- No session has a number that is retired. -/
private theorem Retired.ne_of_find? (h : engine.Retired id) {other : SessionId} {session : Session}
    (hf : engine.table.find? other = some session) : other ≠ id := by
  rintro rfl
  rw [h.session] at hf
  cases hf

/-- Nor has a task. -/
private theorem Retired.ne_of_task (h : engine.Retired id) {other : SessionId} {task : Task}
    (ht : engine.tasks.find? other = some task) : other ≠ id := by
  rintro rfl
  rw [h.task] at ht
  cases ht

/-- Nor will one that starts. -/
private theorem Retired.ne_of_not_called (h : engine.Retired id) {other : SessionId}
    (hc : ¬ engine.table.Called other) : other ≠ id := by
  rintro rfl
  exact hc h.called

/-- No move gives a retired number a task. -/
private theorem Move.find?_task_of_retired (hm : Move engine notes next) (h : engine.Retired id) :
    next.tasks.find? id = none := by
  have hinsert : ∀ other task, other ≠ id → (engine.tasks.insert other task).find? id = none := by
    intro other task hne
    rw [Table.find?_insert, if_neg (Ne.symm hne), h.task]
  have herase : ∀ other, (engine.tasks.erase other).find? id = none := by
    intro other
    rw [Table.find?_erase, h.task, ite_self]
  cases hm with
  | opened free => exact hinsert _ _ (h.ne_of_not_called engine.table.not_called_next)
  | resumed found waiting => exact hinsert _ _ (h.ne_of_find? found)
  | cancelled found =>
    rw [tasks_cancel found]
    exact herase _
  | handedOver notices found queue player =>
    apply hinsert
    exact h.ne_of_not_called (SessionTable.not_called_of_queue_eq_cons found queue)
  | @polled other task found =>
    obtain ⟨notice, -, htasks, -⟩ | ⟨script, htasks, -⟩ := engine.poll_cases other task
    · rw [htasks]
      exact herase other
    · rw [htasks]
      exact hinsert other _ (h.ne_of_task found)
  | unparked found => exact hinsert _ _ (h.ne_of_task found)
  | queued | dropped | awaited | finished | edited | closed => exact h.task

/-- No move notes anything down about a retired number. -/
private theorem Move.notesOf_of_retired (hm : Move engine notes next) (h : engine.Retired id) :
    notesOf id notes = [] := by
  apply notesOf_eq_nil
  cases hm with
  | opened free =>
    simpa [Entry.session, Event.session] using
      h.ne_of_not_called engine.table.not_called_next
  | handedOver notices found queue player =>
    have hfirst := h.ne_of_not_called (SessionTable.not_called_of_queue_eq_cons found queue)
    simpa [Entry.session, Event.session] using ⟨h.ne_of_find? found, hfirst⟩
  | resumed found waiting => simpa [Entry.session] using h.ne_of_find? found
  | cancelled found | awaited notices found alone | finished notices found =>
    simpa [Entry.session, Event.session] using h.ne_of_find? found
  | polled found => simp [Entry.session, Event.session, h.ne_of_task found]
  | queued | dropped | unparked | edited | closed => simp

/-- Every move leaves a retired number alone. -/
private theorem Move.retired (hm : Move engine notes next) (h : engine.Retired id) :
    next.Retired id where
  called := hm.changes.called h.called
  session := hm.changes.find?_eq_none h.called h.session
  task := hm.find?_task_of_retired h

/-- So do any number of moves, and they publish nothing under it. -/
private theorem Moves.retired (hm : Moves engine notes next) (h : engine.Retired id) :
    next.Retired id ∧ next.eventsOf id = engine.eventsOf id := by
  induction hm with
  | refl => exact ⟨h, rfl⟩
  | @head engine middle next notes others first rest ih =>
    obtain ⟨hnext, hevents⟩ := ih (first.retired h)
    refine ⟨hnext, hevents.trans ?_⟩
    rw [first.moves.eventsOf, first.notesOf_of_retired h]
    exact List.append_nil _

/-- Whatever happens in whatever order, a retired number stays so, and nothing more is published
under it. -/
theorem Retired.after (h : engine.Retired id) (acts : List Act) :
    (engine.after acts).Retired id ∧ (engine.after acts).eventsOf id = engine.eventsOf id := by
  induction acts generalizing engine with
  | nil => exact ⟨h, rfl⟩
  | cons act acts ih =>
    obtain ⟨notices, notes, hm⟩ := engine.exists_moves_act act
    have hstart : Retired { engine with notices } id := ⟨h.called, h.session, h.task⟩
    obtain ⟨hact, hevents⟩ := hm.retired hstart
    obtain ⟨hafter, hrest⟩ := ih hact
    exact ⟨hafter, hrest.trans hevents⟩

/-- Of distinct numbers one at most is the one at hand. -/
private theorem filterMap_own (hnodup : ids.Nodup) (id : SessionId) (event? : Option Event) :
    ids.filterMap (fun other => if other = id then event? else none) =
      if id ∈ ids then event?.toList else [] := by
  induction ids with
  | nil => rfl
  | cons other ids ih =>
    obtain ⟨hnew, hnodup⟩ := List.nodup_cons.1 hnodup
    have hrest := ih hnodup
    by_cases heq : other = id
    · subst heq
      rw [if_neg hnew] at hrest
      cases event? <;> simp [hrest]
    · simp [heq, Ne.symm heq, hrest]

/-- A session that is cut off gets just the event of it. -/
theorem Severs.eventsOf (h : engine.Severs ids reason next) (hnodup : ids.Nodup)
    (id : SessionId) :
    next.eventsOf id = engine.eventsOf id ++
      if id ∈ ids then ((engine.table.find? id).map (Session.cutOff id reason)).toList else [] := by
  unfold Engine.eventsOf
  rw [h.log, List.filter_append, List.filter_filterMap, ← filterMap_own hnodup]
  congr 2
  funext other
  by_cases heq : other = id
  · subst heq
    cases engine.table.find? other <;> simp [Session.cutOff, Event.session, Option.filter]
  · cases engine.table.find? other <;> simp [Session.cutOff, Event.session, Option.filter, heq]

/-- What is cut off is retired. -/
private theorem Cuts.retired (h : engine.Cuts command ids reason) (hwf : engine.WF)
    (hid : id ∈ ids) :
    (engine.handle command).1.Retired id := by
  obtain ⟨session, hf, -⟩ := (h.exact id).1 hid
  refine ⟨?_, ?_, ?_⟩
  · exact (engine.changes_act (.command command)).called (hwf.table.called hf)
  · rw [h.severs.session, if_pos hid]
  · rw [h.severs.task, if_pos hid]

/-- So is what waited behind it, though it never had its turn. -/
private theorem Severs.retired_queued (h : engine.Severs ids reason next) (hwf : engine.WF)
    (hid : id ∈ ids)
    {session : Session} (hf : engine.table.find? id = some session) {queued : QueuedTrigger}
    (hq : queued ∈ session.queue) : next.Retired queued.id := by
  have hblock : queued.id ∈ SessionTable.block id session :=
    List.mem_cons_of_mem _ (List.mem_map_of_mem hq)
  have hnone := hwf.table.find?_of_mem_queue hf hq
  refine ⟨⟨?_, ?_⟩, ?_, ?_⟩
  · rw [h.number]
    exact hwf.table.lt_next _ (SessionTable.mem_numbers_iff.2 ⟨id, session, hf, hblock⟩)
  · -- A queue that is left belongs to another session, and the number stands in one queue only.
    intro other found ho waiting hw he
    rw [h.session] at ho
    split at ho
    · cases ho
    · next hkept =>
      have hm : queued.id ∈ SessionTable.block other found :=
        he ▸ List.mem_cons_of_mem _ (List.mem_map_of_mem hw)
      exact hkept (hwf.table.eq_of_mem_block hf hblock ho hm ▸ hid)
  · rw [h.session, hnone, ite_self]
  · rw [h.task, (hwf.fits queued.id).task_eq_none_of_gone hnone, ite_self]

/-- Whatever follows, what waited behind it is never heard of. -/
theorem Severs.silent_queued (h : engine.Severs ids reason next) (hwf : engine.WF)
    (hnodup : ids.Nodup) (hid : id ∈ ids) {session : Session}
    (hf : engine.table.find? id = some session) {queued : QueuedTrigger} (hq : queued ∈ session.queue)
    (hunheard : engine.eventsOf queued.id = []) (acts : List Act) :
    (next.after acts).eventsOf queued.id = [] := by
  obtain ⟨-, hsilent⟩ := (h.retired_queued hwf hid hf hq).after acts
  rw [hsilent, h.eventsOf hnodup, hunheard, hwf.table.find?_of_mem_queue hf hq]
  exact ite_self _

/-- Under a number that had no turn nothing was published. -/
theorem Reachable.eventsOf_eq_nil (h : engine.Reachable) (hc : ¬ engine.table.Called id) :
    engine.eventsOf id = [] := by
  obtain ⟨notes, hlog, htells⟩ := h.tells
  rw [Engine.eventsOf, hlog, ← filterMap_notesOf, (htells id).uncalled hc]
  rfl

/-- No end of an active session was published. -/
private theorem Reachable.not_ended (h : engine.Reachable) {session : Session}
    (hf : engine.table.find? id = some session) : ¬ Ended engine.log id := by
  obtain ⟨notes, hlog, htells⟩ := h.tells
  rw [hlog]
  exact ((htells id).active_iff.1 ⟨_, SessionTable.info?_of_find? hf⟩).2

/-- Whatever follows, a session that was cut off got just the event of it and is not heard of again,
and what waited behind it is never heard of. -/
theorem Cuts.after (hcuts : engine.Cuts command ids reason) (h : engine.Reachable) (hid : id ∈ ids)
    {session : Session} (hf : engine.table.find? id = some session) (acts : List Act) :
    let final := (engine.handle command).1.after acts
    final.eventsOf id = engine.eventsOf id ++ [session.cutOff id reason] ∧
      final.table.find? id = none ∧ ∀ queued ∈ session.queue, final.eventsOf queued.id = [] := by
  intro final
  have hnodup := nodup_of_ascending hcuts.ascending
  obtain ⟨hretired, hevents⟩ := (hcuts.retired h.wf hid).after acts
  refine ⟨?_, hretired.session, ?_⟩
  · rw [hevents, hcuts.severs.eventsOf hnodup, if_pos hid, hf]
    rfl
  · intro queued hq
    have huncalled := SessionTable.not_called_of_mem_queue hf hq
    exact hcuts.severs.silent_queued h.wf hnodup hid hf hq (h.eventsOf_eq_nil huncalled) acts

/-- In any state that can be reached, the loss of a player, a move and a shutdown cut off just the
sessions that they hit, in ascending order and each with one end event, and answer with what they
did; everything else stays as it is, and a quiet engine stays quiet. Whatever follows, in whatever
order and with whatever notices under way, nothing more is published about the sessions that were
cut off, nothing at all about the triggers that waited behind them, and after a shutdown every
request is refused. An engine that is shut down already has no session to cut off and refuses these
commands too. -/
theorem cancellation_exact (h : engine.Reachable) (hreason : command.reason? = some reason) :
    (engine.accepting = false → (∀ id, engine.table.find? id = none) ∧
      engine.handle command = (engine, .error .closed)) ∧
    (engine.accepting = true → ∃ ids, engine.Cuts command ids reason ∧
      (engine.isQuiet = true → engine.perform command = engine.handle command) ∧
      ∀ acts, let final := (engine.handle command).1.after acts
        (∀ id ∈ ids, ∀ session, engine.table.find? id = some session →
          ¬ Ended engine.log id ∧
          final.eventsOf id = engine.eventsOf id ++ [session.cutOff id reason] ∧
          final.table.find? id = none ∧
          ∀ queued ∈ session.queue, final.eventsOf queued.id = []) ∧
        (command = .shutdown → ∀ request, final.handle request = (final, .error .closed))) := by
  constructor
  · intro hclosed
    refine ⟨?_, handle_of_not_accepting hclosed command⟩
    intro id
    rw [Option.eq_none_iff_forall_ne_some]
    intro session hf
    rw [h.accepting hf] at hclosed
    cases hclosed
  · intro haccepting
    obtain ⟨ids, hcuts⟩ := exists_cuts haccepting h.oneDialogue hreason
    refine ⟨ids, hcuts, ?_, ?_⟩
    · intro hquiet
      have hnone : engine.step? = none := Option.isNone_iff_eq_none.1 hquiet
      exact congrArg (·, _) (settle_of_quiet (hcuts.severs.quiet hnone))
    · intro acts final
      refine ⟨fun id hid session hf => ⟨h.not_ended hf, hcuts.after h hid hf acts⟩, ?_⟩
      rintro rfl request
      have hdown : (engine.handle .shutdown).1.IsShutDown := by
        rw [handle_shutdown haccepting]
        exact engine.isShutDown_shutdown
      exact handle_of_not_accepting (hdown.after acts).1 request

/-- The errand is over while the sign is read, but the notice of it is still under way, and the
player's next touch of the NPC waits behind it. -/
def errandIsOver : Engine :=
  signIsRead.after [.command (.trigger ⟨1⟩ (.npc ⟨1⟩ ⟨5⟩)), .unpark ⟨1⟩, .poll ⟨1⟩]

/-- If the player is lost now, the errand is cut off. Neither the notice that comes late nor another
touch of the NPC makes anything more be heard of it, or of the touch that waited. -/
theorem cancellation_exact_errand :
    let final := (errandIsOver.handle (.disconnect ⟨1⟩)).1.after
      [.notice (.finished ⟨1⟩ (.ok ())) [], .command (.trigger ⟨1⟩ (.npc ⟨1⟩ ⟨5⟩))]
    errandIsOver.notices = [.finished ⟨1⟩ (.ok ())] ∧
      final.eventsOf ⟨1⟩ = errandIsOver.eventsOf ⟨1⟩ ++
        [⟨⟨⟨1⟩, ⟨1⟩, .npc ⟨1⟩ ⟨5⟩⟩, .ended (.cancelled .disconnected)⟩] ∧
      final.eventsOf ⟨3⟩ = [] := by
  intro final
  have hsign : signIsRead.Reachable := reachable_play errandRegistry errandWorld _
  have hreach : errandIsOver.Reachable := hsign.after ⟨trivial, trivial, trivial, trivial⟩
  have hreason : (Command.disconnect ⟨1⟩).reason? = some .disconnected := rfl
  have herrand : errandIsOver.table.find? ⟨1⟩ =
      some ⟨⟨1⟩, .npc ⟨1⟩ ⟨5⟩, .running, [⟨⟨3⟩, .npc ⟨1⟩ ⟨5⟩⟩]⟩ := rfl
  obtain ⟨-, hexact⟩ := cancellation_exact hreach hreason
  obtain ⟨ids, hcuts, -, hfinal⟩ := hexact rfl
  have hcut : ⟨1⟩ ∈ ids := (hcuts.exact ⟨1⟩).2 ⟨_, herrand, rfl⟩
  obtain ⟨-, hevents, -, hqueued⟩ := (hfinal _).1 ⟨1⟩ hcut _ herrand
  exact ⟨rfl, hevents, hqueued _ (List.mem_singleton_self _)⟩

end Engine
end Encounter
