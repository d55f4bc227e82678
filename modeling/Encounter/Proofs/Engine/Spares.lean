import Encounter.Proofs.World.Change
import Encounter.Proofs.Session.Slot
import Encounter.Proofs.Cancellation.Exact

/-!
# What is left to the other players

All players share one table, one world and one line of notices. `Engine.Spares` says what of the
other players stays as it is between two states. Each operation spares them if it is about a session
of the player, and a player's command is.
-/

namespace Encounter

/-- The player for whom a command is sent. -/
def Command.player? : Command → Option PlayerId
  | trigger player _ => some player
  | respond player _ => some player
  | disconnect player => some player
  | playerMoved player _ => some player
  | sessions => none
  | shutdown => none

/-- The change of the world that an event reports. -/
def Event.change? (event : Event) : Option World.Change :=
  match event.happening with
  | .effected effect => some (.effected ⟨event.subject.player, event.subject.trigger⟩ effect)
  | _ => none

namespace Engine

variable {engine middle next : Engine} {player : PlayerId} {id : SessionId} {session : Session}

/-- What is published between two states is about the player, and the world changes as published. -/
def Reports (player : PlayerId) (engine next : Engine) : Prop :=
  ∃ events, next.log = engine.log ++ events ∧ (∀ event ∈ events, event.player = player) ∧
    next.world = engine.world.after (events.filterMap Event.change?)

/-- The sessions of all others, their tasks and the notices about them stay as they are. -/
structure Spares (player : PlayerId) (engine next : Engine) : Prop where
  session : ∀ id session, session.player ≠ player →
    (next.table.find? id = some session ↔ engine.table.find? id = some session)
  task : ∀ id task, task.origin.player ≠ player →
    (next.tasks.find? id = some task ↔ engine.tasks.find? id = some task)
  pending : ∀ id session, session.player ≠ player → engine.table.find? id = some session →
    next.pending id = engine.pending id
  reports : Reports player engine next

/-- Under that number the engine keeps nothing of another player. -/
structure Owns (player : PlayerId) (engine : Engine) (id : SessionId) : Prop where
  session : ∀ session, engine.table.find? id = some session → session.player = player
  task : ∀ task, engine.tasks.find? id = some task → task.origin.player = player

theorem Reports.refl (player : PlayerId) (engine : Engine) : Reports player engine engine :=
  ⟨[], (List.append_nil _).symm, by simp, rfl⟩

theorem Reports.trans (h : Reports player engine middle) (h' : Reports player middle next) :
    Reports player engine next := by
  obtain ⟨events, hlog, hplayer, hworld⟩ := h
  obtain ⟨others, hlog', hplayer', hworld'⟩ := h'
  refine ⟨events ++ others, ?_, ?_, ?_⟩
  · rw [hlog', hlog, List.append_assoc]
  · intro event hm
    exact (List.mem_append.1 hm).elim (hplayer event) (hplayer' event)
  · rw [hworld', hworld, List.filterMap_append, World.after_append]

/-- Something that is published without effect on the world. -/
private theorem Reports.of_log {subject : Subject} {happening : Happening}
    (hplayer : subject.player = player) (hnone : (⟨subject, happening⟩ : Event).change? = none)
    (hlog : next.log = engine.log ++ [⟨subject, happening⟩]) (hworld : next.world = engine.world) :
    Reports player engine next := by
  refine ⟨[⟨subject, happening⟩], hlog, ?_, ?_⟩
  · intro event hm
    rw [List.mem_singleton.1 hm]
    exact hplayer
  · rw [hworld, List.filterMap_cons, hnone]
    rfl

/-- Nothing is published. -/
private theorem Reports.of_same (hlog : next.log = engine.log)
    (hworld : next.world = engine.world) :
    Reports player engine next :=
  ⟨[], hlog.trans (List.append_nil _).symm, by simp, hworld⟩

namespace Spares

theorem refl (player : PlayerId) (engine : Engine) : Spares player engine engine :=
  ⟨fun _ _ _ => .rfl, fun _ _ _ => .rfl, fun _ _ _ _ => rfl, .refl player engine⟩

theorem trans (h : Spares player engine middle) (h' : Spares player middle next) :
    Spares player engine next where
  session id session hother := (h'.session id session hother).trans (h.session id session hother)
  task id task hother := (h'.task id task hother).trans (h.task id task hother)
  pending id session hother hf := by
    rw [h'.pending id session hother ((h.session id session hother).2 hf),
      h.pending id session hother hf]
  reports := h.reports.trans h'.reports

/-- What happens under one number of the player spares the others. -/
private theorem of_about (id : SessionId)
    (hsession : ∀ other, other ≠ id → next.table.find? other = engine.table.find? other)
    (htask : ∀ other, other ≠ id → next.tasks.find? other = engine.tasks.find? other)
    (hpending : ∀ other, other ≠ id → next.pending other = engine.pending other)
    (hbefore : Owns player engine id) (hafter : Owns player next id)
    (hreports : Reports player engine next) : Spares player engine next where
  session other session hother := by
    by_cases ho : other = id
    · subst ho
      exact iff_of_false (fun hf => hother (hafter.session session hf))
        (fun hf => hother (hbefore.session session hf))
    · rw [hsession other ho]
  task other task hother := by
    by_cases ho : other = id
    · subst ho
      exact iff_of_false (fun ht => hother (hafter.task task ht))
        (fun ht => hother (hbefore.task task ht))
    · rw [htask other ho]
  pending other session hother hf := by
    apply hpending
    rintro rfl
    exact hother (hbefore.session session hf)
  reports := hreports

end Spares

/-- A task acts for the player of its session. -/
theorem WF.owns (h : engine.WF)
    (hmine : ∀ session, engine.table.find? id = some session → session.player = player) :
    Owns player engine id where
  session := hmine
  task task ht := by
    obtain ⟨session, hf, -, horigin, -⟩ := (h.fits id).task task ht
    rw [horigin]
    exact hmine session hf

/-- A free number. -/
theorem Owns.of_none (hsession : engine.table.find? id = none)
    (htask : engine.tasks.find? id = none) : Owns player engine id where
  session session hf := by
    rw [hsession] at hf
    cases hf
  task task ht := by
    rw [htask] at ht
    cases ht

/-- The number of an active session of the player. -/
private theorem WF.owns_of_find? (h : engine.WF) (hf : engine.table.find? id = some session) :
    Owns session.player engine id := by
  apply h.owns
  intro found hfound
  rw [hf] at hfound
  rw [Option.some.inj hfound]

/-- Cutting off sessions of the player. -/
theorem Severs.spares {ids : List SessionId} {reason : CancelReason}
    (h : engine.Severs ids reason next) (hmine : ∀ id ∈ ids, Owns player engine id) :
    Spares player engine next where
  session id session hother := by
    rw [h.session]
    split
    · next hid => exact iff_of_false nofun fun hf => hother ((hmine id hid).session session hf)
    · exact .rfl
  task id task hother := by
    rw [h.task]
    split
    · next hid => exact iff_of_false nofun fun ht => hother ((hmine id hid).task task ht)
    · exact .rfl
  pending id session hother hf := by
    unfold Engine.pending
    rw [h.notices]
  reports := by
    refine ⟨_, h.log, ?_, ?_⟩
    · intro event hm
      obtain ⟨id, hid, hevent⟩ := List.mem_filterMap.1 hm
      obtain ⟨session, hf, rfl⟩ := Option.map_eq_some_iff.1 hevent
      exact (hmine id hid).session session hf
    · have hnone : ∀ event ∈ ids.filterMap fun id =>
          (engine.table.find? id).map (Session.cutOff id reason), event.change? = none := by
        intro event hm
        obtain ⟨id, hid, hevent⟩ := List.mem_filterMap.1 hm
        obtain ⟨session, hf, rfl⟩ := Option.map_eq_some_iff.1 hevent
        rfl
      rw [h.world, List.filterMap_eq_nil_iff.2 hnone]
      rfl

/-- Cutting off one session of the player, if it is active. -/
private theorem spares_cancel (hmine : Owns player engine id) (reason : CancelReason) :
    Spares player engine (engine.cancel id reason) := by
  cases hf : engine.table.find? id with
  | none =>
    rw [cancel_of_find?_eq_none hf]
    exact .refl player engine
  | some session =>
    apply (severs_cancel hf reason).spares
    intro other ho
    rw [List.mem_singleton.1 ho]
    exact hmine

/-- Dropping the oldest notice. -/
theorem spares_drop {notice : Notice} {rest : List Notice} (hn : engine.notices = notice :: rest)
    (hmine : Owns player engine notice.session) :
    Spares player engine { engine with notices := rest } := by
  refine Spares.of_about notice.session (fun _ _ => rfl) (fun _ _ => rfl) ?_ hmine
    ⟨hmine.session, hmine.task⟩ (.of_same rfl rfl)
  intro other ho
  rw [pending_cons hn, if_neg (Ne.symm ho), Nat.add_zero]

/-- Starting a session under a free number. -/
private theorem spares_start {view : PlayerView} (hview : view.id = player)
    (hmine : Owns player engine id) (trigger : Trigger) (script : NamedScript)
    (queue : List QueuedTrigger) :
    Spares player engine (engine.start id view trigger script queue) := by
  refine Spares.of_about id ?_ ?_ (fun _ _ => rfl) hmine ⟨?_, ?_⟩ (.of_log hview rfl rfl rfl)
  · intro other ho
    rw [table_start, SessionTable.find?_add, if_neg ho]
  · intro other ho
    exact (Table.find?_insert _ _ _ _).trans (if_neg ho)
  · intro session hf
    rw [table_start, SessionTable.find?_add, if_pos rfl] at hf
    rw [← Option.some.inj hf]
    exact hview
  · intro task ht
    rw [← Option.some.inj ((Table.find?_insert_self _ _ _).symm.trans ht)]
    exact hview

/-- Ending a session. -/
private theorem spares_conclude (hplayer : session.player = player) (hmine : Owns player engine id)
    (outcome : Outcome) : Spares player engine (engine.conclude id session outcome) := by
  refine Spares.of_about id ?_ (fun _ _ => rfl) (fun _ _ => rfl) hmine ⟨?_, hmine.task⟩
    (.of_log hplayer rfl rfl rfl)
  · intro other ho
    rw [table_conclude, SessionTable.find?_remove, if_neg ho]
  · intro found hf
    rw [table_conclude, SessionTable.find?_remove, if_pos rfl] at hf
    cases hf

/-- Showing a prompt. -/
private theorem spares_await (hplayer : session.player = player) (hmine : Owns player engine id)
    (prompt : Prompt) (resume : prompt.kind.Answer → Script Unit) :
    Spares player engine (engine.await id session prompt resume) := by
  have hfind : ∀ other, (engine.await id session prompt resume).table.find? other = _ :=
    fun other => engine.table.find?_setPhase id other _
  refine Spares.of_about id ?_ (fun _ _ => rfl) (fun _ _ => rfl) hmine ⟨?_, hmine.task⟩
    (.of_log hplayer rfl rfl rfl)
  · intro other ho
    rw [hfind, if_neg ho]
  · intro found hf
    rw [hfind, if_pos rfl] at hf
    obtain ⟨old, hold, rfl⟩ := Option.map_eq_some_iff.1 hf
    exact hmine.session old hold

/-- Letting a session go on. -/
private theorem spares_resume (hplayer : session.player = player) (hmine : Owns player engine id)
    (script : Script Unit) : Spares player engine (engine.resume id session script) := by
  refine Spares.of_about id ?_ ?_ (fun _ _ => rfl) hmine ⟨?_, ?_⟩ (.of_same rfl rfl)
  · intro other ho
    rw [find?_resume, if_neg ho]
  · intro other ho
    exact (Table.find?_insert _ _ _ _).trans (if_neg ho)
  · intro found hf
    rw [find?_resume, if_pos rfl] at hf
    obtain ⟨old, hold, rfl⟩ := Option.map_eq_some_iff.1 hf
    exact hmine.session old hold
  · intro task ht
    rw [← Option.some.inj ((Table.find?_insert_self _ _ _).symm.trans ht)]
    exact hplayer

/-- Queueing a trigger behind a session. -/
private theorem spares_enqueue (hmine : Owns player engine id) (trigger : Trigger) :
    Spares player engine (engine.enqueue id trigger) := by
  have hfind : ∀ other, (engine.enqueue id trigger).table.find? other = _ :=
    fun other => engine.table.allocate.find?_enqueue id other _
  refine Spares.of_about id ?_ (fun _ _ => rfl) (fun _ _ => rfl) hmine ⟨?_, hmine.task⟩
    (.of_same rfl rfl)
  · intro other ho
    rw [hfind, if_neg ho, SessionTable.find?_allocate]
  · intro found hf
    rw [hfind, if_pos rfl] at hf
    obtain ⟨old, hold, rfl⟩ := Option.map_eq_some_iff.1 hf
    exact hmine.session old hold

/-- Running a task. -/
theorem spares_poll {task : Task} (ht : engine.tasks.find? id = some task)
    (hmine : Owns player engine id) : Spares player engine (engine.poll id task) := by
  have horigin : task.origin.player = player := hmine.task task ht
  have hreports : Reports player engine (engine.poll id task) := by
    refine ⟨_, engine.log_poll id task, ?_, ?_⟩
    · intro event hm
      obtain ⟨effect, -, rfl⟩ := List.mem_map.1 hm
      exact horigin
    · rw [world_poll, List.filterMap_map, World.after,
        show Event.change? ∘ _ = some ∘ World.Change.effected task.origin from rfl,
        List.filterMap_eq_map, List.foldl_map]
      rfl
  have htable : ∀ other, (engine.poll id task).table.find? other = engine.table.find? other := by
    intro other
    rw [table_poll]
  obtain ⟨notice, hs, htasks, hnotices⟩ | ⟨script, htasks, hnotices⟩ := engine.poll_cases id task
  · refine .of_about id (fun other _ => htable other) ?_ ?_ hmine ⟨?_, ?_⟩ hreports
    · intro other ho
      rw [htasks, Table.find?_erase, if_neg ho]
    · intro other ho
      rw [pending_append hnotices, hs, if_neg (Ne.symm ho), Nat.add_zero]
    · intro session hf
      exact hmine.session session ((htable id).symm.trans hf)
    · intro other ho
      rw [htasks, Table.find?_erase_self] at ho
      cases ho
  · refine .of_about id (fun other _ => htable other) ?_ ?_ hmine ⟨?_, ?_⟩ hreports
    · intro other ho
      rw [htasks, Table.find?_insert, if_neg ho]
    · intro other ho
      unfold Engine.pending
      rw [hnotices]
    · intro session hf
      exact hmine.session session ((htable id).symm.trans hf)
    · intro other ho
      rw [htasks, Table.find?_insert_self] at ho
      rw [← Option.some.inj ho]
      exact horigin

/-! ## Notices and commands -/

/-- A prompt of a session of the player opens a dialogue or cuts the session off. -/
private theorem spares_suspend (hmine : Owns player engine id) (prompt : Prompt)
    (resume : prompt.kind.Answer → Script Unit) :
    Spares player engine (engine.suspend id prompt resume) := by
  cases hf : engine.table.find? id with
  | none =>
    rw [suspend_of_find?_eq_none hf]
    exact .refl player engine
  | some session =>
    obtain ⟨-, he⟩ | ⟨-, he⟩ := suspend_cases hf prompt resume
    · rw [he]
      exact spares_await (hmine.session session hf) hmine prompt resume
    · rw [he]
      exact spares_cancel hmine .conversationOpen

/-- A session of the player ends and hands its slot on. -/
private theorem spares_finish (hwf : engine.WF) (hmine : Owns player engine id)
    (result : Except ScriptError Unit) : Spares player engine (engine.finish id result) := by
  cases hf : engine.table.find? id with
  | none =>
    rw [finish_of_find?_eq_none hf]
    exact .refl player engine
  | some session =>
    have hplayer := hmine.session session hf
    have hconclude := spares_conclude hplayer hmine (.ofResult result)
    obtain ⟨first, rest, script, view, hqueue, -, hview, he⟩ | ⟨-, he⟩ := finish_cases hf result
    · rw [he]
      refine hconclude.trans (spares_start ?_ ?_ first.trigger script rest)
      · exact (World.id_of_player?_eq_some hview).trans hplayer
      -- The number that starts was that of no session before, so it had no task.
      · have hnone : engine.table.find? first.id = none :=
          hwf.table.find?_of_mem_queue hf (by simp [hqueue])
        have htask : (engine.conclude id session (.ofResult result)).tasks.find? first.id = none :=
          (hwf.fits first.id).task_eq_none_of_gone hnone
        apply Owns.of_none ?_ htask
        rw [table_conclude, SessionTable.find?_remove, hnone, ite_self]
    · rw [he]
      exact hconclude

/-- Whatever a notice is about, it is handled under its number. -/
theorem spares_receive (hwf : engine.WF) {notice : Notice}
    (hmine : Owns player engine notice.session) : Spares player engine (engine.receive notice) := by
  cases notice with
  | suspended id prompt resume => exact spares_suspend hmine prompt resume
  | finished id result => exact spares_finish hwf hmine result

/-- A trigger starts a session of the player or waits behind one. -/
private theorem spares_trigger (hwf : engine.WF) (player : PlayerId) (trigger : Trigger) :
    Spares player engine (engine.trigger player trigger).1 := by
  obtain ⟨script, view, -, -, -, hview, he⟩ | ⟨id, session, hslot, -, -, he⟩ | ⟨result, -, he⟩ :=
    engine.trigger_cases player trigger
  · let allocated : Engine := { engine with table := engine.table.allocate }
    have hallocate : Spares player engine allocated :=
      ⟨fun _ _ _ => .rfl, fun _ _ _ => .rfl, fun _ _ _ _ => rfl, .of_same rfl rfl⟩
    have hfree : engine.table.find? engine.table.next = none :=
      Option.eq_none_iff_forall_ne_some.2 fun found hf =>
        engine.table.not_called_next (hwf.table.called hf)
    have hmine : Owns player allocated engine.table.next :=
      .of_none hfree ((hwf.fits _).task_eq_none_of_gone hfree)
    rw [he]
    exact hallocate.trans
      (spares_start (World.id_of_player?_eq_some hview) hmine trigger script [])
  · obtain ⟨hf, hsame⟩ := hwf.table.inSlot?_iff.1 hslot
    rw [he, ← show session.player = player from congrArg Slot.player hsame]
    exact spares_enqueue (hwf.owns_of_find? hf) trigger
  · rw [he]
    exact .refl player engine

/-- A reply lets the open dialogue of the player go on. -/
private theorem spares_respond (hwf : engine.WF) (player : PlayerId) (reply : Reply) :
    Spares player engine (engine.respond player reply).1 := by
  obtain ⟨id, session, prompt, resume, hs, -, -, he⟩ | ⟨error, he⟩ :=
    engine.respond_cases player reply
  · obtain ⟨hf, rfl, -⟩ := SessionTable.of_suspendedOf?_eq_some hs
    rw [he]
    exact spares_resume rfl (hwf.owns_of_find? hf) _
  · rw [he]
    exact .refl player engine

/-- A move cuts off the open dialogue of the player at most. -/
private theorem spares_playerMoved (hwf : engine.WF) (player : PlayerId) (map : MapId) :
    Spares player engine (engine.playerMoved player map).1 := by
  obtain ⟨id, session, hs, -, he⟩ | he := engine.playerMoved_cases player map
  · obtain ⟨hf, rfl, -⟩ := SessionTable.of_suspendedOf?_eq_some hs
    rw [he]
    exact spares_cancel (hwf.owns_of_find? hf) .mapChanged
  · rw [he]
    exact .refl player engine

/-- A player's command is about sessions of the player. -/
theorem spares_handle (hwf : engine.WF) {command : Command} (hcommand : command.player? = some player) :
    Spares player engine (engine.handle command).1 := by
  cases haccepting : engine.accepting with
  | false =>
    rw [handle_of_not_accepting haccepting]
    exact .refl player engine
  | true =>
    cases command with
    | trigger sender trigger =>
      cases hcommand
      rw [handle_trigger haccepting]
      exact spares_trigger hwf player trigger
    | respond sender reply =>
      cases hcommand
      rw [handle_respond haccepting]
      exact spares_respond hwf player reply
    | disconnect sender =>
      cases hcommand
      have hcuts := cuts_disconnect haccepting player
      apply hcuts.severs.spares
      intro id hid
      obtain ⟨session, hf, rfl⟩ := (hcuts.exact id).1 hid
      exact hwf.owns_of_find? hf
    | playerMoved sender map =>
      cases hcommand
      rw [handle_playerMoved haccepting]
      exact spares_playerMoved hwf player map
    | sessions | shutdown => cases hcommand

end Engine
end Encounter
