import Encounter.Proofs.Conversation.Exclusive

/-!
# Reactors and open dialogues

A reactor asks only for the session of its own slot. A trigger of it starts a session if there is
none, waits behind one that runs and is refused while it waits for an answer. Whatever else the
player or others have going on makes no difference.
-/

namespace Encounter
namespace SessionTable

variable {table : SessionTable} {slot : Slot}

/-- What clients see of the sessions in a slot. -/
def infosIn (table : SessionTable) (slot : Slot) : List SessionInfo :=
  table.infos.filter fun info => info.player = slot.player ∧ info.trigger.key = slot.key

/-- A session is listed in its slot. -/
private theorem mem_infosIn_iff {info : SessionInfo} :
    info ∈ table.infosIn slot ↔
      ∃ session, table.find? info.id = some session ∧ session.slot = slot ∧
        info = ⟨info.id, session.player, session.trigger, session.phase.prompt?⟩ := by
  simp only [infosIn, List.mem_filter, mem_infos_iff, decide_eq_true_eq]
  constructor
  · rintro ⟨hseen, hplayer, hkey⟩
    obtain ⟨session, hf, he⟩ := find?_of_info? hseen
    refine ⟨session, hf, ?_, he⟩
    rw [he] at hplayer hkey
    dsimp only at hplayer hkey
    rw [Session.slot, hplayer, hkey]
  · rintro ⟨session, hf, rfl, he⟩
    rw [he]
    exact ⟨info?_of_find? hf, rfl, rfl⟩

/-- A slot lists its session and no other. -/
private theorem WF.head?_infosIn (h : table.WF) (slot : Slot) :
    (table.infosIn slot).head? = (table.inSlot? slot).map fun entry =>
      ⟨entry.1, entry.2.player, entry.2.trigger, entry.2.phase.prompt?⟩ := by
  cases hs : table.inSlot? slot with
  | none =>
    rw [Option.map_none, List.head?_eq_none_iff, List.eq_nil_iff_forall_not_mem]
    intro info hm
    obtain ⟨session, hf, hslot, -⟩ := mem_infosIn_iff.1 hm
    rw [h.inSlot?_iff.2 ⟨hf, hslot⟩] at hs
    cases hs
  | some entry =>
    obtain ⟨id, session⟩ := entry
    obtain ⟨hf, hslot⟩ := h.inSlot?_iff.1 hs
    have hlisted : ⟨id, session.player, session.trigger, session.phase.prompt?⟩ ∈
        table.infosIn slot := mem_infosIn_iff.2 ⟨session, hf, hslot, rfl⟩
    cases hl : table.infosIn slot with
    | nil => simp [hl] at hlisted
    | cons info rest =>
      have hfirst : info ∈ table.infosIn slot := by simp [hl]
      obtain ⟨found, hfound, hthere, he⟩ := mem_infosIn_iff.1 hfirst
      -- The index leads to one number only.
      have hboth := (h.inSlot?_iff.2 ⟨hfound, hthere⟩).symm.trans hs
      simp only [Option.some.injEq, Prod.mk.injEq] at hboth
      obtain ⟨hid, rfl⟩ := hboth
      rw [List.head?_cons, he, hid]
      rfl

end SessionTable

namespace Engine

variable {engine : Engine} {player : PlayerId} {view : PlayerView} {trigger : Trigger}
  {script : NamedScript}

/-- The answer to a trigger of a reactor, by the next number and by what is listed in its slot. -/
def reactorAnswer (player : PlayerId) (next : SessionId) :
    Option SessionInfo → Except EngineError TriggerOutcome
  | none => .ok (.started next)
  | some info =>
    if info.prompt.isSome then .error (.sessionBusy player info.trigger) else .ok (.queued next)

/-- A reactor whose slot is free starts its script, whatever dialogue is open. -/
private theorem trigger_reactor_of_free (hreactor : trigger.kind = .reactor)
    (hscript : engine.registry.find? trigger.key = some script)
    (hknown : engine.world.player? player = some view)
    (hfree : engine.table.inSlot? ⟨player, trigger.key⟩ = none) :
    engine.trigger player trigger =
      (engine.startNext view trigger script, .ok (.started engine.table.next)) := by
  unfold Engine.trigger
  rw [hscript, hfree, hreactor, barring?, hknown]

/-- The answer is told by the slot. -/
private theorem trigger_reactor_answer (hwf : engine.table.WF) (hreactor : trigger.kind = .reactor)
    (hscript : engine.registry.find? trigger.key = some script)
    (hknown : engine.world.player? player = some view) :
    (engine.trigger player trigger).2 = reactorAnswer player engine.table.next
      (engine.table.infosIn ⟨player, trigger.key⟩).head? := by
  rw [hwf.head?_infosIn]
  cases hslot : engine.table.inSlot? ⟨player, trigger.key⟩ with
  | none =>
    rw [trigger_reactor_of_free hreactor hscript hknown hslot]
    rfl
  | some entry =>
    obtain ⟨id, session⟩ := entry
    simp only [Option.map_some, reactorAnswer]
    cases hs : session.isSuspended with
    | true =>
      rw [trigger_of_suspended hscript hslot hs]
      exact (if_pos hs).symm
    | false =>
      rw [trigger_of_running hscript hslot hs, hknown]
      exact (if_neg (by rw [← Session.isSuspended, hs]; decide)).symm

/-- At any time, also when the engine rests, a player whom the world knows touches a reactor that a
script answers. If the player has no session of that reactor, one starts under the next number. If
there is one, the trigger is queued behind it under the next number while it runs, and refused with
the trigger of that session while it waits for an answer. An engine that was shut down refuses the
command, any other gives just this answer. It is the same in any other state that has given away as
many numbers and lists the same of that player and reactor: no other session counts, be it of the
player or of others, and neither does an open dialogue. -/
theorem reactor_trigger_by_slot (engine : Engine) (h : engine.Reachable) (player : PlayerId)
    (view : PlayerView) (hknown : engine.world.player? player = some view) (trigger : Trigger)
    (hreactor : trigger.kind = .reactor) (script : NamedScript)
    (hscript : engine.registry.find? trigger.key = some script) :
    ((∀ id session, engine.table.find? id = some session → session.player = player →
        session.trigger.key ≠ trigger.key) →
      engine.trigger player trigger =
        (engine.startNext view trigger script, .ok (.started engine.table.next))) ∧
    (∀ id session, engine.table.find? id = some session → session.player = player →
      session.trigger.key = trigger.key →
      engine.trigger player trigger =
        if session.isSuspended then (engine, .error (.sessionBusy player session.trigger))
        else (engine.enqueue id trigger, .ok (.queued engine.table.next))) ∧
    (engine.perform (.trigger player trigger)).2 =
      (if engine.accepting then (engine.trigger player trigger).2.map .triggered
      else .error .closed) ∧
    ∀ other : Engine, other.Reachable → (other.world.player? player).isSome →
      (other.registry.find? trigger.key).isSome → other.table.next = engine.table.next →
      other.table.infosIn ⟨player, trigger.key⟩ = engine.table.infosIn ⟨player, trigger.key⟩ →
      (other.trigger player trigger).2 = (engine.trigger player trigger).2 := by
  have hwf : engine.table.WF := h.wf.table
  refine ⟨?_, ?_, ?_, ?_⟩
  · intro hnone
    apply trigger_reactor_of_free hreactor hscript hknown
    rw [Option.eq_none_iff_forall_ne_some]
    rintro ⟨id, session⟩ hslot
    obtain ⟨hf, hoccupied⟩ := hwf.inSlot?_iff.1 hslot
    exact hnone id session hf (congrArg Slot.player hoccupied) (congrArg Slot.key hoccupied)
  · intro id session hf hplayer hkey
    have hslot : engine.table.inSlot? ⟨player, trigger.key⟩ = some (id, session) := by
      apply hwf.inSlot?_iff.2 ⟨hf, ?_⟩
      rw [Session.slot, hplayer, hkey]
    cases hs : session.isSuspended with
    | true => exact trigger_of_suspended hscript hslot hs
    | false =>
      rw [trigger_of_running hscript hslot hs, hknown]
      rfl
  · cases ha : engine.accepting with
    | true =>
      rw [perform, handle_trigger ha]
      rfl
    | false =>
      rw [perform, handle_of_not_accepting ha]
      rfl
  · intro other hother hisknown hbound hnext hinfos
    obtain ⟨seen, hseen⟩ := Option.isSome_iff_exists.1 hisknown
    obtain ⟨named, hnamed⟩ := Option.isSome_iff_exists.1 hbound
    rw [trigger_reactor_answer hother.wf.table hreactor hnamed hseen,
      trigger_reactor_answer hwf hreactor hscript hknown, hnext, hinfos]

/-- Two reactors: a sign that shows a line, and a bell. -/
def bellRegistry : Registry :=
  (Registry.empty.insert (.reactor ⟨2⟩) ⟨"sign", fun _ => .say "Mind the step."⟩).insert
    (.reactor ⟨3⟩) ⟨"bell", fun _ => .done ()⟩

/-- The player reads the sign. -/
def bellAtHand : Engine :=
  (new bellRegistry errandWorld).play [.command (.trigger ⟨1⟩ (.reactor ⟨2⟩ ⟨5⟩))]

private theorem infos_bellAtHand : bellAtHand.table.infos =
    [⟨⟨1⟩, ⟨1⟩, .reactor ⟨2⟩ ⟨5⟩, some ⟨.say, "Mind the step."⟩⟩] := by
  decide +kernel

/-- While the sign is read, the bell can be rung and the sign not be touched again. -/
theorem bell_beside_sign :
    (bellAtHand.trigger ⟨1⟩ (.reactor ⟨3⟩ ⟨5⟩)).2 = .ok (.started bellAtHand.table.next) ∧
      (bellAtHand.trigger ⟨1⟩ (.reactor ⟨2⟩ ⟨5⟩)).2 =
        .error (.sessionBusy ⟨1⟩ (.reactor ⟨2⟩ ⟨5⟩)) := by
  have hreachable : bellAtHand.Reachable := reachable_play bellRegistry errandWorld _
  have hknown : bellAtHand.world.player? ⟨1⟩ = some ⟨⟨1⟩, "Ann", 30, ⟨5⟩⟩ := by decide +kernel
  obtain ⟨hfree, -⟩ := reactor_trigger_by_slot bellAtHand hreachable ⟨1⟩ _ hknown
    (.reactor ⟨3⟩ ⟨5⟩) rfl ⟨"bell", fun _ => .done ()⟩ rfl
  obtain ⟨-, htaken, -⟩ := reactor_trigger_by_slot bellAtHand hreachable ⟨1⟩ _ hknown
    (.reactor ⟨2⟩ ⟨5⟩) rfl ⟨"sign", fun _ => .say "Mind the step."⟩ rfl
  constructor
  · refine congrArg Prod.snd (hfree fun id session hf _ => ?_)
    have hlisted : ⟨id, session.player, session.trigger, session.phase.prompt?⟩ ∈
        bellAtHand.table.infos := SessionTable.mem_infos_iff.2 (SessionTable.info?_of_find? hf)
    simp only [infos_bellAtHand, List.mem_singleton, SessionInfo.mk.injEq] at hlisted
    rw [hlisted.2.2.1]
    decide
  · have hlisted : ⟨⟨1⟩, ⟨1⟩, .reactor ⟨2⟩ ⟨5⟩, some ⟨.say, "Mind the step."⟩⟩ ∈
        bellAtHand.table.infos := by simp [infos_bellAtHand]
    obtain ⟨sign, hsign, hplayer, htrigger, hasks⟩ := SessionTable.find?_of_mem_infos hlisted
    have hwaits : sign.isSuspended = true := by simp [Session.isSuspended, hasks]
    rw [htaken _ sign hsign hplayer (congrArg Trigger.key htrigger), if_pos hwaits, htrigger]

end Engine
end Encounter
