import Encounter.Proofs.Chronicle.Play
import Encounter.Proofs.Engine.Order
import Encounter.Proofs.Session.Info
import Encounter.Proofs.Session.Slot

/-!
# NPCs and open dialogues

A player with an open dialogue is busy for NPCs: the trigger is refused and changes nothing. The one
exception is an NPC whose own session runs beside the dialogue. It is asked for before the dialogue
is looked at, so a trigger of that NPC is queued.
-/

namespace Encounter
namespace Engine

variable {engine : Engine} {player : PlayerId} {trigger : Trigger}

/-- An NPC without a session of its own is refused by the open dialogue of the player. -/
private theorem trigger_npc_of_free {id : SessionId} {dialogue : Session} {script : NamedScript}
    (hdialogue : engine.table.suspendedOf? player = some (id, dialogue))
    (hnpc : trigger.kind = .npc) (hscript : engine.registry.find? trigger.key = some script)
    (hfree : engine.table.inSlot? ⟨player, trigger.key⟩ = none) :
    engine.trigger player trigger = (engine, .error (.sessionBusy player dialogue.trigger)) := by
  unfold Engine.trigger
  rw [hscript, hfree, hnpc, barring?, hdialogue]
  rfl

/-- A trigger is refused while the session of its slot waits for an answer. -/
theorem trigger_of_suspended {id : SessionId} {session : Session} {script : NamedScript}
    (hscript : engine.registry.find? trigger.key = some script)
    (htaken : engine.table.inSlot? ⟨player, trigger.key⟩ = some (id, session))
    (hs : session.isSuspended = true) :
    engine.trigger player trigger = (engine, .error (.sessionBusy player session.trigger)) := by
  unfold Engine.trigger
  rw [hscript, htaken]
  simp [hs]

/-- After any run, a player has an open dialogue and touches an NPC that a script answers. Unless
the NPC has a session of the player that runs, the trigger is refused on account of the dialogue and
changes nothing. If it has one, the trigger is queued behind that session, or refused if the world
does not know the player; it starts no session in either case. -/
theorem npc_trigger_beside_dialogue (registry : Registry) (world : World)
    (operations : List Operation) (player : PlayerId) (id : SessionId) (dialogue : Session)
    (hfound : ((new registry world).play operations).table.find? id = some dialogue)
    (hplayer : dialogue.player = player) (hopen : dialogue.isSuspended = true)
    (trigger : Trigger) (hnpc : trigger.kind = .npc) (script : NamedScript)
    (hscript : registry.find? trigger.key = some script) :
    let engine := (new registry world).play operations
    ((∀ other session, engine.table.inSlot? ⟨player, trigger.key⟩ = some (other, session) →
        session.isSuspended = true) →
      engine.perform (.trigger player trigger) =
        (engine, .error (.sessionBusy player dialogue.trigger))) ∧
    (∀ other session, engine.table.inSlot? ⟨player, trigger.key⟩ = some (other, session) →
      session.isSuspended = false →
      engine.perform (.trigger player trigger) =
        if (engine.world.player? player).isSome then
          (engine.enqueue other trigger, .ok (.triggered (.queued engine.table.next)))
        else (engine, .error (.unknownPlayer player))) := by
  intro engine
  have haccepting : engine.accepting = true := accepting_of_find?_play rfl hfound
  have hquiet : engine.step? = none := quiet_play rfl operations
  have hchanges := ((new registry world).moves_play operations).changes
  have hone : engine.table.OneDialogue := hchanges.oneDialogue SessionTable.oneDialogue_empty
  have hbound : engine.registry.find? trigger.key = some script := by
    rw [registry_play]
    exact hscript
  -- The dialogue that the engine finds is the one at hand.
  have hdialogue : engine.table.suspendedOf? player = some (id, dialogue) := by
    cases hs : engine.table.suspendedOf? player with
    | none =>
      have hrun := SessionTable.suspendedOf?_eq_none_iff.1 hs id dialogue hfound hplayer
      rw [hopen] at hrun
      cases hrun
    | some entry =>
      obtain ⟨other, session⟩ := entry
      have hid : id = other := (hone.open_iff hs id).1 ⟨dialogue, hfound, hplayer, hopen⟩
      have hf := (SessionTable.of_suspendedOf?_eq_some hs).1
      rw [← hid, hfound] at hf
      cases hf
      rw [hid]
  constructor
  · intro hwaits
    have hrefused : engine.trigger player trigger =
        (engine, .error (.sessionBusy player dialogue.trigger)) := by
      cases hslot : engine.table.inSlot? ⟨player, trigger.key⟩ with
      | none => exact trigger_npc_of_free hdialogue hnpc hbound hslot
      | some entry =>
        obtain ⟨other, session⟩ := entry
        have hs := hwaits other session hslot
        obtain ⟨hf, hoccupied⟩ := (hchanges.wf SessionTable.wf_empty).inSlot?_iff.1 hslot
        have hid : other = id := (hone.open_iff hdialogue other).1
          ⟨session, hf, congrArg Slot.player hoccupied, hs⟩
        rw [hid, hfound] at hf
        cases hf
        exact trigger_of_suspended hbound hslot hs
    rw [perform, handle_trigger haccepting, hrefused]
    exact congrArg (·, _) (settle_of_quiet hquiet)
  · intro other session hslot hs
    rw [perform, handle_trigger haccepting, trigger_of_running hbound hslot hs]
    by_cases hknown : (engine.world.player? player).isSome
    · rw [if_pos hknown, if_pos hknown]
      exact congrArg (·, _) (settle_enqueue_of_quiet hquiet other trigger)
    · rw [if_neg hknown, if_neg hknown]
      exact congrArg (·, _) (settle_of_quiet hquiet)

/-- An NPC whose script waits to be released, and a reactor that shows a line. -/
def errandRegistry : Registry :=
  (Registry.empty.insert (.npc ⟨1⟩) ⟨"errand", fun _ => .park (.done ())⟩).insert (.reactor ⟨2⟩)
    ⟨"sign", fun _ => .say "Mind the step."⟩

/-- The world of one player. -/
def errandWorld : World := World.empty.upsertPlayer ⟨⟨1⟩, "Ann", 30, ⟨5⟩⟩

/-- The player has touched the NPC, which runs on, and then the sign, which waits to be read. -/
def signIsRead : Engine :=
  (new errandRegistry errandWorld).play
    [.command (.trigger ⟨1⟩ (.npc ⟨1⟩ ⟨5⟩)), .command (.trigger ⟨1⟩ (.reactor ⟨2⟩ ⟨5⟩))]

private theorem infos_signIsRead : signIsRead.table.infos =
    [⟨⟨1⟩, ⟨1⟩, .npc ⟨1⟩ ⟨5⟩, none⟩,
      ⟨⟨2⟩, ⟨1⟩, .reactor ⟨2⟩ ⟨5⟩, some ⟨.say, "Mind the step."⟩⟩] := by
  decide +kernel

/-- The errand runs, and the sign is the open dialogue. -/
private theorem sessions_signIsRead : ∃ errand sign,
    signIsRead.table.inSlot? ⟨⟨1⟩, .npc ⟨1⟩⟩ = some (⟨1⟩, errand) ∧ errand.isSuspended = false ∧
    signIsRead.table.find? ⟨2⟩ = some sign ∧ sign.player = ⟨1⟩ ∧ sign.isSuspended = true := by
  have hwf : signIsRead.table.WF :=
    ((new errandRegistry errandWorld).moves_play _).changes.wf SessionTable.wf_empty
  have hfirst : ⟨⟨1⟩, ⟨1⟩, .npc ⟨1⟩ ⟨5⟩, none⟩ ∈ signIsRead.table.infos := by
    simp [infos_signIsRead]
  have hsecond : ⟨⟨2⟩, ⟨1⟩, .reactor ⟨2⟩ ⟨5⟩, some ⟨.say, "Mind the step."⟩⟩ ∈
      signIsRead.table.infos := by
    simp [infos_signIsRead]
  obtain ⟨errand, herrand, hplayer, htrigger, hruns⟩ := SessionTable.find?_of_mem_infos hfirst
  obtain ⟨sign, hsign, hreader, -, hasks⟩ := SessionTable.find?_of_mem_infos hsecond
  refine ⟨errand, sign, hwf.inSlot?_iff.2 ⟨herrand, ?_⟩, ?_, hsign, hreader, ?_⟩
  · rw [Session.slot, hplayer, htrigger]
    rfl
  · simp [Session.isSuspended, hruns]
  · simp [Session.isSuspended, hasks]

/-- The sign waits to be put away. -/
theorem find?_signIsRead : ∃ next, signIsRead.table.find? ⟨2⟩ =
    some ⟨⟨1⟩, .reactor ⟨2⟩ ⟨5⟩, .suspended ⟨.say, "Mind the step."⟩ next, []⟩ :=
  ⟨_, rfl⟩

/-- On account of the errand, the player's next touch of the NPC is queued beside the dialogue. -/
theorem npc_trigger_beside_sign :
    signIsRead.table.next = ⟨3⟩ ∧ signIsRead.perform (.trigger ⟨1⟩ (.npc ⟨1⟩ ⟨5⟩)) =
      (signIsRead.enqueue ⟨1⟩ (.npc ⟨1⟩ ⟨5⟩), .ok (.triggered (.queued signIsRead.table.next))) := by
  obtain ⟨errand, sign, hslot, hruns, hsign, hreader, hasks⟩ := sessions_signIsRead
  obtain ⟨-, hqueued⟩ := npc_trigger_beside_dialogue errandRegistry errandWorld
    [.command (.trigger ⟨1⟩ (.npc ⟨1⟩ ⟨5⟩)), .command (.trigger ⟨1⟩ (.reactor ⟨2⟩ ⟨5⟩))] ⟨1⟩ ⟨2⟩
    sign hsign hreader hasks (.npc ⟨1⟩ ⟨5⟩) rfl ⟨"errand", fun _ => .park (.done ())⟩ rfl
  have hknown : (signIsRead.world.player? ⟨1⟩).isSome = true := by decide +kernel
  have hperform : signIsRead.perform (.trigger ⟨1⟩ (.npc ⟨1⟩ ⟨5⟩)) = _ :=
    hqueued ⟨1⟩ errand hslot hruns
  exact ⟨by decide +kernel, hperform.trans (if_pos hknown)⟩

/-- So it is not true that an open dialogue makes every NPC refuse its player. -/
theorem not_every_npc_refused : ¬ ∀ (registry : Registry) (world : World)
    (operations : List Operation) (player : PlayerId) (id : SessionId) (dialogue : Session)
    (trigger : Trigger) (script : NamedScript),
    ((new registry world).play operations).table.find? id = some dialogue →
    dialogue.player = player → dialogue.isSuspended = true → trigger.kind = .npc →
    registry.find? trigger.key = some script →
    ((new registry world).play operations).perform (.trigger player trigger) =
      ((new registry world).play operations, .error (.sessionBusy player dialogue.trigger)) := by
  intro h
  obtain ⟨errand, sign, -, -, hsign, hreader, hasks⟩ := sessions_signIsRead
  have hrefused := h errandRegistry errandWorld _ ⟨1⟩ ⟨2⟩ sign (.npc ⟨1⟩ ⟨5⟩)
    ⟨"errand", fun _ => .park (.done ())⟩ hsign hreader hasks rfl rfl
  have hqueued : (signIsRead.perform (.trigger ⟨1⟩ (.npc ⟨1⟩ ⟨5⟩))).2.toOption =
      some (.triggered (.queued ⟨3⟩)) := by decide +kernel
  have hnone := (congrArg (fun answered => answered.2.toOption) hrefused).symm.trans hqueued
  cases hnone

end Engine
end Encounter
