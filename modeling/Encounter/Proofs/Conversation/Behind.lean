import Encounter.Proofs.Conversation.Lasting
import Encounter.Proofs.Queue.Runs

/-!
# NPCs that start behind an open dialogue

A session starts in one of two ways, by a trigger or out of a queue (`Engine.start_cases`). A trigger
of an NPC is refused while a dialogue of its player is open, but what waits in a queue starts without
regard to dialogues. So an NPC can start behind an open dialogue, and it does so exactly if the
session ahead of it ends while the dialogue is open (`Engine.starts_behind_iff`).
-/

namespace Encounter
namespace Engine

variable {engine next : Engine} {act : Act} {subject : Subject} {events : List Event}

/-- The events that an act publishes. -/
def published (engine : Engine) (act : Act) : List Event :=
  (engine.act act).log.drop engine.log.length

/-- The act publishes the start of a session of an NPC while another session of the player waits for
an answer. -/
def StartsBehind (engine : Engine) (act : Act) (player : PlayerId) : Prop :=
  ∃ id trigger other, ⟨⟨id, player, trigger⟩, .started⟩ ∈ engine.published act ∧
    trigger.kind = .npc ∧ other ≠ id ∧ engine.table.Open player other

/-- The act ends a session of an NPC with something queued behind it, while a dialogue of the player
is open and the world knows the player. -/
inductive HandsOver (engine : Engine) (player : PlayerId) : Act → Prop where
  | finished {id other : SessionId} {session : Session} {result : Except ScriptError Unit}
      {rest : List Notice} (found : engine.table.find? id = some session)
      (owner : session.player = player) (npc : session.trigger.kind = .npc)
      (waits : session.queue ≠ []) (known : (engine.world.player? player).isSome)
      (dialogue : engine.table.Open player other) :
      HandsOver engine player (.notice (.finished id result) rest)

/-- What an act appends to the log is what it publishes. -/
private theorem published_eq (hact : engine.act act = next)
    (hlog : next.log = engine.log ++ events) :
    engine.published act = events := by
  rw [published, hact, hlog, List.drop_left]

/-- An act that appends no start to the log starts nothing. -/
private theorem not_started_of_log (hact : engine.act act = next)
    (hlog : next.log = engine.log ++ events)
    (hnone : ∀ event ∈ events, event.happening ≠ .started) :
    ⟨subject, .started⟩ ∉ engine.published act := by
  rw [published_eq hact hlog]
  exact fun hm => hnone _ hm rfl

/-- An act that leaves the log starts nothing. -/
private theorem not_started_of_same (hact : engine.act act = next) (hlog : next.log = engine.log) :
    ⟨subject, .started⟩ ∉ engine.published act :=
  not_started_of_log hact (hlog.trans (List.append_nil _).symm) fun _ hm =>
    absurd hm List.not_mem_nil

/-- Of all commands only a trigger that no dialogue bars starts a session. -/
private theorem start_of_command (h : engine.Reachable) {command : Command}
    (hs : ⟨subject, .started⟩ ∈ engine.published (.command command)) :
    command = .trigger subject.player subject.trigger ∧
      engine.barring? subject.player subject.trigger.kind = none := by
  have hact : engine.act (.command command) = (engine.handle command).1 := rfl
  cases ha : engine.accepting with
  | false =>
    rw [handle_of_not_accepting ha] at hact
    exact absurd hs (not_started_of_same hact rfl)
  | true =>
    have hcut : ∀ reason, command.reason? = some reason → False := by
      intro reason hreason
      obtain ⟨ids, hcuts⟩ := exists_cuts ha h.oneDialogue hreason
      refine not_started_of_log hact hcuts.severs.log ?_ hs
      intro event hm
      obtain ⟨id, -, hid⟩ := List.mem_filterMap.1 hm
      obtain ⟨session, -, rfl⟩ := Option.map_eq_some_iff.1 hid
      exact fun he => by cases he
    cases command with
    | trigger player trigger =>
      rw [handle_trigger ha] at hact
      obtain ⟨script, view, -, -, hfree, hview, he⟩ | ⟨id, session, -, -, -, he⟩ | ⟨result, -, he⟩ :=
        engine.trigger_cases player trigger
      · rw [he] at hact
        rw [published_eq hact rfl, List.mem_singleton] at hs
        cases hs
        rw [World.id_of_player?_eq_some hview]
        exact ⟨rfl, hfree⟩
      · rw [he] at hact
        exact absurd hs (not_started_of_same hact rfl)
      · rw [he] at hact
        exact absurd hs (not_started_of_same hact rfl)
    | respond player reply =>
      rw [handle_respond ha] at hact
      obtain ⟨id, session, prompt, next, -, -, -, he⟩ | ⟨error, he⟩ :=
          engine.respond_cases player reply <;>
      · rw [he] at hact
        exact absurd hs (not_started_of_same hact rfl)
    | sessions =>
      rw [handle, ha] at hact
      exact absurd hs (not_started_of_same hact rfl)
    | disconnect | playerMoved | shutdown => exact (hcut _ rfl).elim

/-- Of all notices only one of an end starts a session: the first one that waits behind the session
that ended. -/
private theorem start_of_notice {notice : Notice} {rest : List Notice}
    (hs : ⟨subject, .started⟩ ∈ engine.published (.notice notice rest)) :
    ∃ id result session first others, notice = .finished id result ∧
      engine.table.find? id = some session ∧ session.queue = first :: others ∧
      (engine.world.player? session.player).isSome ∧
      subject = ⟨first.id, session.player, first.trigger⟩ := by
  let popped : Engine := { engine with notices := rest }
  have hact : engine.act (.notice notice rest) = popped.receive notice := rfl
  cases notice with
  | suspended id prompt next =>
    rw [receive] at hact
    cases hf : popped.table.find? id with
    | none =>
      rw [suspend_of_find?_eq_none hf] at hact
      exact absurd hs (not_started_of_same hact rfl)
    | some session =>
      obtain ⟨-, he⟩ | ⟨-, he⟩ := suspend_cases hf prompt next
      · rw [he] at hact
        exact absurd hs (not_started_of_log hact rfl (by simp))
      · rw [he] at hact
        exact absurd hs (not_started_of_log hact (log_cancel hf .conversationOpen) (by simp))
  | finished id result =>
    rw [receive] at hact
    cases hf : popped.table.find? id with
    | none =>
      rw [finish_of_find?_eq_none hf] at hact
      exact absurd hs (not_started_of_same hact rfl)
    | some session =>
      obtain ⟨first, others, script, view, hqueue, -, hview, he⟩ | ⟨-, he⟩ := finish_cases hf result
      · rw [he] at hact
        rw [published_eq hact (List.append_assoc _ _ _)] at hs
        have hsubject : subject = ⟨first.id, view.id, first.trigger⟩ := by simpa using hs
        rw [World.id_of_player?_eq_some hview] at hsubject
        have hknown : (engine.world.player? session.player).isSome := Option.isSome_of_eq_some hview
        exact ⟨id, result, session, first, others, rfl, hf, hqueue, hknown, hsubject⟩
      · have hlog : (popped.conclude id session (.ofResult result)).log = engine.log ++
            [⟨⟨id, session.player, session.trigger⟩, .ended (.ofResult result)⟩] := rfl
        rw [he] at hact
        exact absurd hs (not_started_of_log hact hlog (by simp))

/-- A session is started by a trigger that no dialogue bars, or it was the first one behind another
that ended. -/
theorem start_cases (h : engine.Reachable)
    (hs : ⟨subject, .started⟩ ∈ engine.published act) :
    (act = .command (.trigger subject.player subject.trigger) ∧
      engine.barring? subject.player subject.trigger.kind = none) ∨
    ∃ id result rest session first others, act = .notice (.finished id result) rest ∧
      engine.table.find? id = some session ∧ session.queue = first :: others ∧
      (engine.world.player? session.player).isSome ∧
      subject = ⟨first.id, session.player, first.trigger⟩ := by
  cases act with
  | command command =>
    obtain ⟨rfl, hbar⟩ := start_of_command h hs
    exact .inl ⟨rfl, hbar⟩
  | notice notice rest =>
    obtain ⟨id, result, session, first, others, rfl, hrest⟩ := start_of_notice hs
    exact .inr ⟨id, result, rest, session, first, others, rfl, hrest⟩
  | poll id =>
    cases ht : engine.tasks.find? id with
    | none =>
      have hact : engine.act (.poll id) = engine := by rw [Engine.act, ht]
      exact absurd hs (not_started_of_same hact rfl)
    | some task =>
      have hact : engine.act (.poll id) = engine.poll id task := by rw [Engine.act, ht]
      exact absurd hs (not_started_of_log hact (engine.log_poll id task) (by simp))
  | unpark | edit => exact absurd hs (not_started_of_same rfl rfl)

/-- What waits behind a session takes its place when the session ends, if the world still knows the
player. -/
private theorem start_of_finished (h : engine.Reachable) {id : SessionId} {session : Session}
    {result : Except ScriptError Unit} {rest : List Notice} {first : QueuedTrigger}
    {others : List QueuedTrigger} (hf : engine.table.find? id = some session)
    (hqueue : session.queue = first :: others)
    (hknown : (engine.world.player? session.player).isSome) :
    ⟨⟨first.id, session.player, first.trigger⟩, .started⟩ ∈
      engine.published (.notice (.finished id result) rest) := by
  let popped : Engine := { engine with notices := rest }
  have hkey : first.trigger.key = session.trigger.key :=
    h.wf.table.key_of_mem_queue id session hf first (by simp [hqueue])
  have hact : engine.act (.notice (.finished id result) rest) = popped.finish id result := rfl
  obtain ⟨front, others', script, view, hfront, -, hview, he⟩ | ⟨hnone, -⟩ :=
    @finish_cases popped id session hf result
  · rw [hqueue] at hfront
    cases hfront
    rw [he] at hact
    rw [published_eq hact (List.append_assoc _ _ _), ← World.id_of_player?_eq_some hview]
    simp
  · have hbound := h.bound hf
    rcases hnone with hnil | ⟨waiting, hw, hunbound⟩ | hunknown
    · rw [hqueue] at hnil
      cases hnil
    · rw [h.wf.table.key_of_mem_queue id session hf waiting hw] at hunbound
      rw [show engine.registry.find? _ = none from hunbound] at hbound
      cases hbound
    · rw [show engine.world.player? _ = none from hunknown] at hknown
      cases hknown

/-- Only what waited in a queue starts behind an open dialogue. -/
private theorem StartsBehind.handsOver (h : engine.Reachable) {player : PlayerId}
    (hbehind : engine.StartsBehind act player) : engine.HandsOver player act := by
  obtain ⟨started, trigger, other, hs, hnpc, -, hopen⟩ := hbehind
  obtain ⟨-, hbar⟩ | ⟨id, result, rest, session, first, others, rfl, hf, hqueue, hknown, he⟩ :=
    start_cases h hs
  · -- The trigger was accepted, so no dialogue is open.
    dsimp only at hbar
    rw [hnpc, barring?, Option.map_eq_none_iff] at hbar
    exact absurd hopen (SessionTable.suspendedOf?_eq_none_iff_not_open.1 hbar other)
  · cases he
    have hkey : first.trigger.key = session.trigger.key :=
      h.wf.table.key_of_mem_queue id session hf first (by simp [hqueue])
    have hkind : session.trigger.kind = .npc := (congrArg TriggerKey.kind hkey).symm.trans hnpc
    exact .finished hf rfl hkind (by simp [hqueue]) hknown hopen

/-- Whatever waited in the queue of an NPC starts in spite of an open dialogue. -/
private theorem HandsOver.startsBehind (h : engine.Reachable) {player : PlayerId}
    (hover : engine.HandsOver player act) : engine.StartsBehind act player := by
  cases hover with
  | @finished id other session result rest found owner npc waits known dialogue =>
    subst owner
    obtain ⟨first, others, hqueue⟩ := List.exists_cons_of_ne_nil waits
    have hfirst : first ∈ session.queue := by simp [hqueue]
    have hkey := h.wf.table.key_of_mem_queue id session found first hfirst
    have hkind : first.trigger.kind = .npc := (congrArg TriggerKey.kind hkey).trans npc
    refine ⟨first.id, first.trigger, other, start_of_finished h found hqueue known, hkind, ?_,
      dialogue⟩
    -- The number that starts was that of no session before.
    rintro rfl
    obtain ⟨opened, hopened, -⟩ := dialogue
    rw [h.wf.table.find?_of_mem_queue found hfirst] at hopened
    cases hopened

/-- Whatever happened so far, the next act starts a session of an NPC behind an open dialogue of its
player exactly if it ends an earlier session of that NPC with something queued behind it, while the
dialogue is open and the world knows the player. So no command does it. The dialogue stays open
meanwhile. -/
theorem starts_behind_iff (h : engine.Reachable) (htakes : engine.Takes act) (player : PlayerId) :
    (engine.StartsBehind act player ↔ engine.HandsOver player act) ∧
      (engine.StartsBehind act player → ∀ other dialogue, dialogue.isSuspended = true →
        engine.table.find? other = some dialogue →
        (engine.act act).table.find? other = some dialogue) := by
  refine ⟨⟨StartsBehind.handsOver h, HandsOver.startsBehind h⟩, ?_⟩
  intro hbehind other dialogue hs hf
  cases hbehind.handsOver h
  exact (h.act_of_open hf hs htakes).2 not_false

/-- The errand, asked for twice, is over while the sign is read, and the notice of it is under way. -/
def errandTwice : Engine :=
  ((new errandRegistry errandWorld).play
    [.command (.trigger ⟨1⟩ (.npc ⟨1⟩ ⟨5⟩)), .command (.trigger ⟨1⟩ (.npc ⟨1⟩ ⟨5⟩)),
      .command (.trigger ⟨1⟩ (.reactor ⟨2⟩ ⟨5⟩))]).after [.unpark ⟨1⟩, .poll ⟨1⟩]

theorem reachable_errandTwice : errandTwice.Reachable :=
  (reachable_play errandRegistry errandWorld _).after ⟨trivial, trivial, trivial⟩

/-- The sign is the open dialogue. -/
private theorem open_errandTwice : errandTwice.table.Open ⟨1⟩ ⟨3⟩ := ⟨_, rfl, rfl, rfl⟩

/-- The NPC starts the second errand although the sign is still being read. -/
theorem starts_behind_sign :
    errandTwice.StartsBehind (.notice (.finished ⟨1⟩ (.ok ())) []) ⟨1⟩ := by
  have htakes : errandTwice.Takes (.notice (.finished ⟨1⟩ (.ok ())) []) := rfl
  have herrand : errandTwice.table.find? ⟨1⟩ =
      some ⟨⟨1⟩, .npc ⟨1⟩ ⟨5⟩, .running, [⟨⟨2⟩, .npc ⟨1⟩ ⟨5⟩⟩]⟩ := rfl
  obtain ⟨hiff, -⟩ := starts_behind_iff reachable_errandTwice htakes ⟨1⟩
  exact hiff.2 (.finished herrand rfl rfl (List.cons_ne_nil _ _) rfl open_errandTwice)

/-- So it is not true that no NPC ever starts behind an open dialogue. -/
theorem not_never_behind : ¬ ∀ (engine : Engine) (act : Act) (player : PlayerId),
    engine.Reachable → engine.Takes act → ¬ engine.StartsBehind act player := by
  intro h
  refine h errandTwice (.notice (.finished ⟨1⟩ (.ok ())) []) ⟨1⟩ reachable_errandTwice rfl ?_
  refine ⟨⟨2⟩, .npc ⟨1⟩ ⟨5⟩, ⟨3⟩, ?_, rfl, by simp, open_errandTwice⟩
  decide +kernel

end Engine
end Encounter
