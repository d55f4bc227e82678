import Mathlib.Data.List.Basic
import Encounter.Proofs.Engine.Order

/-!
# Which sessions a command cuts off

Three commands cut sessions off: the loss of a player, a move to another map and a shutdown.
`Command.Hits` says which sessions, and `Engine.Severs` what cutting them off does: each leaves the
table together with its task and gets its one end event, in the order of the numbers, and nothing
else changes.
-/

namespace Encounter

/-- The reason for which a command cuts sessions off, if it is one that does. -/
def Command.reason? : Command → Option CancelReason
  | disconnect _ => some .disconnected
  | playerMoved _ _ => some .mapChanged
  | shutdown => some .shutdown
  | _ => none

/-- The command cuts that session off: its player is gone, or it waits for an answer while its
player is on another map, or everything ends. -/
def Command.Hits (session : Session) : Command → Prop
  | disconnect player => session.player = player
  | playerMoved player map =>
    session.player = player ∧ session.isSuspended = true ∧ session.trigger.map ≠ map
  | shutdown => True
  | _ => False

/-- What is answered to a command that cut off that many sessions. -/
def Command.report (count : Nat) : Command → Answer
  | shutdown => .stopped count
  | _ => .cancelled (0 < count)

/-- The event that a session is cut off. -/
def Session.cutOff (id : SessionId) (reason : CancelReason) (session : Session) : Event :=
  ⟨⟨id, session.player, session.trigger⟩, .ended (.cancelled reason)⟩

namespace SessionTable

/-- The numbers of the sessions ascend. -/
private theorem pairwise_ids (table : SessionTable) : table.ids.Pairwise fun a b => a.val < b.val :=
  table.sessions.ascending_keys.imp fun h => Nat.compare_eq_lt.1 h

/-- So do those of the sessions of one player. -/
private theorem pairwise_idsOf (table : SessionTable) (player : PlayerId) :
    (table.idsOf player).Pairwise fun a b => a.val < b.val :=
  table.pairwise_ids.sublist (List.filter_sublist.map Prod.fst)

end SessionTable

namespace Engine

variable {engine middle next : Engine} {id : SessionId} {ids : List SessionId}
variable {reason : CancelReason}

/-- In `next` the sessions of those numbers are cut off, each with its task and with one event, in
this order. All other sessions and tasks, the number that is given away next, the notices and the
world are as in `engine`. -/
structure Severs (engine : Engine) (ids : List SessionId) (reason : CancelReason) (next : Engine) :
    Prop where
  session : ∀ id, next.table.find? id = if id ∈ ids then none else engine.table.find? id
  task : ∀ id, next.tasks.find? id = if id ∈ ids then none else engine.tasks.find? id
  log : next.log = engine.log ++
    ids.filterMap fun id => (engine.table.find? id).map (Session.cutOff id reason)
  number : next.table.next = engine.table.next
  notices : next.notices = engine.notices
  world : next.world = engine.world

theorem Severs.nil (engine : Engine) (reason : CancelReason) : engine.Severs [] reason engine :=
  ⟨by simp, by simp, by simp, rfl, rfl, rfl⟩

/-- Cutting off one session, and then others. -/
theorem Severs.cons (hnew : id ∉ ids) (h : engine.Severs [id] reason middle)
    (h' : middle.Severs ids reason next) : engine.Severs (id :: ids) reason next where
  session other := by
    rw [h'.session, h.session]
    by_cases hid : other = id <;> by_cases hids : other ∈ ids <;> simp [hid, hids]
  task other := by
    rw [h'.task, h.task]
    by_cases hid : other = id <;> by_cases hids : other ∈ ids <;> simp [hid, hids]
  log := by
    -- The first one is none of the others, which are therefore still as they were.
    have hothers : ∀ other ∈ ids, middle.table.find? other = engine.table.find? other := by
      intro other ho
      rw [h.session, if_neg]
      intro hid
      exact hnew (List.mem_singleton.1 hid ▸ ho)
    have hevents : (ids.filterMap fun other =>
        (middle.table.find? other).map (Session.cutOff other reason)) =
        ids.filterMap fun other =>
          (engine.table.find? other).map (Session.cutOff other reason) :=
      List.filterMap_congr fun other ho => by rw [hothers other ho]
    rw [h'.log, h.log, hevents, List.append_assoc, ← List.filterMap_append]
    rfl
  number := h'.number.trans h.number
  notices := h'.notices.trans h.notices
  world := h'.world.trans h.world

theorem severs_cancel {session : Session} (hf : engine.table.find? id = some session)
    (reason : CancelReason) : engine.Severs [id] reason (engine.cancel id reason) where
  session other := by simp only [find?_cancel, List.mem_singleton]
  task other := by
    rw [tasks_cancel hf, Table.find?_erase]
    simp only [List.mem_singleton]
  log := by
    rw [log_cancel hf, List.filterMap_cons, hf]
    rfl
  number := by
    rw [table_cancel hf]
    rfl
  notices := notices_cancel engine id reason
  world := by
    unfold cancel
    rw [hf]
    rfl

/-- Active sessions are cut off one by one. -/
private theorem severs_cancelEach (hnodup : ids.Nodup)
    (hactive : ∀ id ∈ ids, ∃ session, engine.table.find? id = some session)
    (reason : CancelReason) : engine.Severs ids reason (engine.cancelEach ids reason) := by
  induction ids generalizing engine with
  | nil => exact .nil engine reason
  | cons id ids ih =>
    obtain ⟨hnew, hnodup⟩ := List.nodup_cons.1 hnodup
    obtain ⟨session, hf⟩ := hactive id List.mem_cons_self
    refine .cons hnew (severs_cancel hf reason) (ih hnodup ?_)
    intro other ho
    obtain ⟨found, hfound⟩ := hactive other (List.mem_cons_of_mem _ ho)
    refine ⟨found, ?_⟩
    rw [find?_cancel, if_neg, hfound]
    rintro rfl
    exact hnew ho

/-- Where sessions are only cut off, nothing new is to be done. -/
theorem Severs.quiet (h : engine.Severs ids reason next) (hquiet : engine.step? = none) :
    next.step? = none := by
  obtain ⟨hnotices, hparked⟩ := step?_eq_none_iff.1 hquiet
  refine step?_eq_none_iff.2 ⟨h.notices.trans hnotices, ?_⟩
  intro id task ht
  rw [h.task] at ht
  split at ht
  · cases ht
  · exact hparked id task ht

/-- Just the sessions that the command hits are cut off, in ascending order, and the answer reports
it. -/
structure Cuts (engine : Engine) (command : Command) (ids : List SessionId)
    (reason : CancelReason) : Prop where
  ascending : ids.Pairwise fun a b => a.val < b.val
  exact : ∀ id, id ∈ ids ↔ ∃ session, engine.table.find? id = some session ∧ command.Hits session
  severs : engine.Severs ids reason (engine.handle command).1
  answer : (engine.handle command).2 = .ok (command.report ids.length)

/-- A session stays as it is unless the command hits it. -/
theorem Cuts.find?_iff {command : Command} (h : engine.Cuts command ids reason) {session : Session}
    (hf : engine.table.find? id = some session) :
    (engine.handle command).1.table.find? id = some session ↔ ¬ command.Hits session := by
  have hhit : id ∈ ids ↔ command.Hits session := by
    rw [h.exact, hf]
    constructor
    · rintro ⟨found, ⟨⟩, hhits⟩
      exact hhits
    · exact fun hhits => ⟨session, rfl, hhits⟩
  rw [h.severs.session, ← hhit, hf]
  by_cases hid : id ∈ ids <;> simp [hid]

/-- Numbers that ascend are distinct. -/
theorem nodup_of_ascending (h : ids.Pairwise fun a b => a.val < b.val) : ids.Nodup :=
  h.imp fun hlt he => Nat.ne_of_lt hlt (congrArg SessionId.val he)

theorem cuts_disconnect (haccepting : engine.accepting = true) (player : PlayerId) :
    engine.Cuts (.disconnect player) (engine.table.idsOf player) .disconnected := by
  have hascending := engine.table.pairwise_idsOf player
  have hexact : ∀ id, id ∈ engine.table.idsOf player ↔ _ := fun id => SessionTable.mem_idsOf_iff
  have hactive : ∀ id ∈ engine.table.idsOf player, ∃ session,
      engine.table.find? id = some session := by
    intro id hid
    obtain ⟨session, hf, -⟩ := (hexact id).1 hid
    exact ⟨session, hf⟩
  refine ⟨hascending, hexact, ?_, ?_⟩
  · rw [handle_disconnect haccepting]
    exact severs_cancelEach (nodup_of_ascending hascending) hactive .disconnected
  · have hany : ∀ ids : List SessionId, (!ids.isEmpty) = decide (0 < ids.length) := by
      intro ids
      cases ids <;> rfl
    rw [handle_disconnect haccepting, disconnect, hany]
    rfl

private theorem cuts_shutdown (haccepting : engine.accepting = true) :
    engine.Cuts .shutdown engine.table.ids .shutdown := by
  have hascending := engine.table.pairwise_ids
  have hexact : ∀ id, id ∈ engine.table.ids ↔ _ := fun id => SessionTable.mem_ids_iff
  have hcut := severs_cancelEach (nodup_of_ascending hascending) (fun id => (hexact id).1) .shutdown
  refine ⟨hascending, ?_, ?_, ?_⟩
  · intro id
    simp [hexact, Command.Hits]
  · rw [handle_shutdown haccepting]
    exact ⟨hcut.session, hcut.task, hcut.log, hcut.number, hcut.notices, hcut.world⟩
  · rw [handle_shutdown haccepting]
    rfl

/-- A move that cuts off no dialogue changes nothing. -/
private theorem cuts_nothing (haccepting : engine.accepting = true) {player : PlayerId}
    {map : MapId} (hsame : engine.playerMoved player map = (engine, false))
    (hnone : ∀ id session, engine.table.find? id = some session →
      ¬ (Command.playerMoved player map).Hits session) :
    engine.Cuts (.playerMoved player map) [] .mapChanged := by
  refine ⟨.nil, ?_, ?_, ?_⟩
  · intro id
    refine iff_of_false List.not_mem_nil ?_
    rintro ⟨session, hf, hhits⟩
    exact hnone id session hf hhits
  · rw [handle_playerMoved haccepting, hsame]
    exact .nil engine .mapChanged
  · rw [handle_playerMoved haccepting, hsame]
    simp [Command.report]

/-- A player has one dialogue at most, so a move cuts off at most one session. -/
theorem exists_cuts_playerMoved (haccepting : engine.accepting = true)
    (hone : engine.table.OneDialogue) (player : PlayerId) (map : MapId) :
    ∃ ids, engine.Cuts (.playerMoved player map) ids .mapChanged := by
  cases hs : engine.table.suspendedOf? player with
  | none =>
    refine ⟨[], cuts_nothing haccepting (by rw [playerMoved, hs]) ?_⟩
    rintro id session hf ⟨hplayer, hwaits, -⟩
    rw [SessionTable.suspendedOf?_eq_none_iff.1 hs id session hf hplayer] at hwaits
    cases hwaits
  | some entry =>
    obtain ⟨id, session⟩ := entry
    obtain ⟨hf, rfl, hwaits⟩ := SessionTable.of_suspendedOf?_eq_some hs
    -- Whatever the move might cut off is this dialogue.
    have honly : ∀ other found, engine.table.find? other = some found →
        (Command.playerMoved session.player map).Hits found → other = id ∧ found = session := by
      rintro other found ho ⟨hplayer, hopen, -⟩
      have hid : other = id := (hone.open_iff hs other).1 ⟨found, ho, hplayer, hopen⟩
      rw [hid, hf] at ho
      exact ⟨hid, (Option.some.inj ho).symm⟩
    by_cases hmap : session.trigger.map = map
    · refine ⟨[], cuts_nothing haccepting (by rw [playerMoved, hs]; simp [hmap]) ?_⟩
      intro other found ho hhits
      obtain ⟨-, rfl⟩ := honly other found ho hhits
      exact hhits.2.2 hmap
    · have hmoved : engine.playerMoved session.player map = (engine.cancel id .mapChanged, true) := by
        rw [playerMoved, hs]
        simp [hmap]
      refine ⟨[id], List.pairwise_singleton _ _, ?_, ?_, ?_⟩
      · intro other
        rw [List.mem_singleton]
        constructor
        · rintro rfl
          exact ⟨session, hf, rfl, hwaits, hmap⟩
        · rintro ⟨found, ho, hhits⟩
          exact (honly other found ho hhits).1
      · rw [handle_playerMoved haccepting, hmoved]
        exact severs_cancel hf .mapChanged
      · rw [handle_playerMoved haccepting, hmoved]
        rfl

/-- Each of the commands that cut sessions off cuts off just those that it hits. -/
theorem exists_cuts (haccepting : engine.accepting = true) (hone : engine.table.OneDialogue)
    {command : Command} (hreason : command.reason? = some reason) :
    ∃ ids, engine.Cuts command ids reason := by
  cases command with
  | disconnect player =>
    cases hreason
    exact ⟨_, cuts_disconnect haccepting player⟩
  | playerMoved player map =>
    cases hreason
    exact exists_cuts_playerMoved haccepting hone player map
  | shutdown =>
    cases hreason
    exact ⟨_, cuts_shutdown haccepting⟩
  | trigger | respond | sessions => cases hreason

end Engine
end Encounter
