import Mathlib.Data.List.Induction
import Mathlib.Data.List.Nodup
import Encounter.Proofs.Queue.Line

/-!
# What became of those who were admitted

Every act advances the lines, so along a run the subjects admitted for a slot fall into a past and
the line: those of the past started in the order of their admission, or were dropped, and the others
still wait (`Engine.served_in_order`).
-/

namespace Encounter
namespace Engine

variable {engine : Engine} {drops : Slot → Prop}

/-- A trigger is admitted and starts, is admitted and queued, or changes nothing. -/
private theorem act_trigger_cases (engine : Engine) (player : PlayerId) (trigger : Trigger) :
    (∃ script view, (engine.registry.find? trigger.key).isSome ∧ view.id = player ∧
      engine.table.inSlot? ⟨player, trigger.key⟩ = none ∧
      engine.act (.command (.trigger player trigger)) = engine.startNext view trigger script ∧
      engine.admits (.command (.trigger player trigger)) = [⟨engine.table.next, player, trigger⟩]) ∨
    (∃ id session, (engine.registry.find? trigger.key).isSome ∧
      engine.table.inSlot? ⟨player, trigger.key⟩ = some (id, session) ∧
      engine.act (.command (.trigger player trigger)) = engine.enqueue id trigger ∧
      engine.admits (.command (.trigger player trigger)) = [⟨engine.table.next, player, trigger⟩]) ∨
    engine.act (.command (.trigger player trigger)) = engine ∧
      engine.admits (.command (.trigger player trigger)) = [] := by
  have hact : engine.act (.command (.trigger player trigger)) =
      (engine.handle (.trigger player trigger)).1 := rfl
  rw [admits]
  cases ha : engine.accepting with
  | false =>
    rw [handle_of_not_accepting ha] at hact ⊢
    exact .inr (.inr ⟨hact, rfl⟩)
  | true =>
    rw [handle_trigger ha] at hact ⊢
    obtain ⟨script, view, hs, hfree, -, hview, he⟩ | ⟨id, session, htaken, -, hs, he⟩ |
      ⟨result, hresult, he⟩ := engine.trigger_cases player trigger
    · have hid := World.id_of_player?_eq_some hview
      rw [he] at hact ⊢
      exact .inl ⟨script, view, by simp [hs], hid, hfree, hact, rfl⟩
    · rw [he] at hact ⊢
      exact .inr (.inl ⟨id, session, hs, htaken, hact, rfl⟩)
    · rw [he] at hact ⊢
      refine .inr (.inr ⟨hact, ?_⟩)
      cases result with
      | error error => rfl
      | ok outcome => simp [Except.map, hresult outcome rfl]

private theorem advances_trigger (hwf : engine.table.WF) (player : PlayerId) (trigger : Trigger) :
    Advances engine (engine.act (.command (.trigger player trigger)))
      (engine.admits (.command (.trigger player trigger))) drops := by
  obtain ⟨script, view, -, rfl, hfree, he, ha⟩ | ⟨id, session, -, htaken, he, ha⟩ | ⟨he, ha⟩ :=
    engine.act_trigger_cases player trigger
  · rw [he, ha]
    exact advances_startNext hwf hfree script
  · rw [he, ha]
    exact advances_enqueue hwf htaken
  · rw [he, ha]
    exact advances_of_same rfl rfl

/-- Every command advances the lines. -/
private theorem advances_command (hwf : engine.table.WF) (command : Command) :
    Advances engine (engine.act (.command command)) (engine.admits (.command command))
      (engine.Drops · (.command command)) := by
  cases ha : engine.accepting with
  | false =>
    have hsame : engine.act (.command command) = engine := by
      rw [act, handle_of_not_accepting ha]
    have hnone : engine.admits (.command command) = [] := by
      unfold admits
      split
      · rw [handle_of_not_accepting ha]
      · rfl
    rw [hsame, hnone]
    exact advances_of_same rfl rfl
  | true =>
    cases command with
    | trigger player trigger => exact advances_trigger hwf player trigger
    | respond player reply =>
      rw [act, handle_respond ha]
      obtain ⟨id, session, prompt, next, -, -, -, he⟩ | ⟨error, he⟩ :=
        engine.respond_cases player reply
      · rw [he]
        exact advances_setPhase rfl rfl
      · rw [he]
        exact advances_of_same rfl rfl
    | disconnect player =>
      rw [act, handle_disconnect ha]
      apply advances_cancelEach hwf
      intro slot id session hs hid
      obtain ⟨hf, -⟩ := hwf.inSlot?_iff.1 hs
      obtain ⟨found, hfound, rfl⟩ := SessionTable.mem_idsOf_iff.1 hid
      rw [hf] at hfound
      cases hfound
      exact .cutOff hs (.disconnected ha hf)
    | playerMoved player map =>
      rw [act, handle_playerMoved ha]
      obtain ⟨id, session, hs, hmap, he⟩ | he := engine.playerMoved_cases player map
      · rw [he]
        apply advances_cancelEach hwf [id]
        intro slot other found ho hid
        obtain ⟨hf, hp, -⟩ := SessionTable.of_suspendedOf?_eq_some hs
        obtain ⟨hfound, -⟩ := hwf.inSlot?_iff.1 ho
        rw [List.mem_singleton.1 hid, hf] at hfound
        cases hfound
        subst hp
        exact .cutOff ho (.mapChanged ha (List.mem_singleton.1 hid ▸ hs) hmap)
      · rw [he]
        exact advances_of_same rfl rfl
    | sessions =>
      have hsame : engine.act (.command .sessions) = engine := by
        rw [act, handle, ha]
        rfl
      rw [hsame]
      exact advances_of_same rfl rfl
    | shutdown =>
      have hcut : Advances engine (engine.cancelEach engine.table.ids .shutdown) []
          (engine.Drops · (.command .shutdown)) := by
        apply advances_cancelEach hwf
        intro slot id session hs hid
        exact .cutOff hs (.shutdown ha (hwf.inSlot?_iff.1 hs).1)
      rw [act, handle_shutdown ha]
      exact ⟨hcut.next_eq, hcut.numbers, hcut.line⟩

/-- A prompt advances the lines: it drops at most the one behind its own session. -/
private theorem advances_suspend (hwf : engine.table.WF) (id : SessionId) (prompt : Prompt)
    (resume : prompt.kind.Answer → Script Unit)
    (hdrops : ∀ slot session, engine.table.inSlot? slot = some (id, session) →
      (engine.table.suspendedOf? session.player).isSome → drops slot) :
    Advances engine (engine.suspend id prompt resume) [] drops := by
  cases hf : engine.table.find? id with
  | none =>
    rw [suspend_of_find?_eq_none hf]
    exact advances_of_same rfl rfl
  | some session =>
    obtain ⟨-, he⟩ | ⟨hbusy, he⟩ := suspend_cases hf prompt resume
    · rw [he]
      exact advances_setPhase rfl (by simp [await, publish, starts])
    · rw [he]
      apply advances_cancelEach hwf [id]
      intro slot other found ho hid
      rw [List.mem_singleton.1 hid] at ho
      obtain ⟨hfound, -⟩ := hwf.inSlot?_iff.1 ho
      rw [hf] at hfound
      cases hfound
      exact hdrops slot session ho hbusy

/-- Whatever waits, a script answers its key. -/
def LinesBound (engine : Engine) : Prop :=
  ∀ slot, ∀ subject ∈ engine.line slot, (engine.registry.find? subject.trigger.key).isSome

/-- With scripts for all that waits, a session that ends by itself starts the first trigger behind
it, unless there is none or the world does not know the player. -/
theorem LinesBound.finish_cases (hbound : engine.LinesBound) (hwf : engine.table.WF)
    {id : SessionId} {session : Session} (hf : engine.table.find? id = some session)
    (result : Except ScriptError Unit) :
    (∃ first others script view, session.queue = first :: others ∧ view.id = session.player ∧
      engine.finish id result =
        (engine.conclude id session (.ofResult result)).start first.id view first.trigger script
          others) ∨
    (session.queue = [] ∨ engine.world.player? session.player = none) ∧
      engine.finish id result = engine.conclude id session (.ofResult result) := by
  obtain ⟨first, others, script, view, hqueue, -, hview, he⟩ | ⟨hcause, he⟩ :=
    Engine.finish_cases hf result
  · exact .inl ⟨first, others, script, view, hqueue, World.id_of_player?_eq_some hview, he⟩
  · refine .inr ⟨?_, he⟩
    rcases hcause with hempty | ⟨queued, hm, hs⟩ | hgone
    · exact .inl hempty
    · have hline : ⟨queued.id, session.player, queued.trigger⟩ ∈ engine.line session.slot := by
        rw [line, SessionTable.queueIn_of_inSlot? (hwf.inSlot?_iff.2 ⟨hf, rfl⟩)]
        exact List.mem_map.2 ⟨queued, hm, rfl⟩
      have hscript := hbound _ _ hline
      rw [hs] at hscript
      cases hscript
    · exact .inr hgone

/-- An end advances the lines: the one behind the session is handed on, unless the world does not
know the player. -/
private theorem advances_finish (hwf : engine.table.WF) (hbound : engine.LinesBound)
    (id : SessionId) (result : Except ScriptError Unit)
    (hdrops : ∀ slot session, engine.table.inSlot? slot = some (id, session) →
      engine.world.player? slot.player = none → drops slot) :
    Advances engine (engine.finish id result) [] drops := by
  cases hf : engine.table.find? id with
  | none =>
    rw [finish_of_find?_eq_none hf]
    exact advances_of_same rfl rfl
  | some session =>
    obtain ⟨first, others, script, view, hqueue, hview, he⟩ | ⟨hcause, he⟩ :=
      hbound.finish_cases hwf hf result
    · rw [he]
      exact advances_handOver hwf hf hqueue hview _ script
    · rw [he]
      apply advances_conclude hwf hf
      exact hcause.imp_right (hdrops session.slot session (hwf.inSlot?_iff.2 ⟨hf, rfl⟩))

/-- When a session ends by itself, whatever its result, and the world knows its player, the front of
its line starts in its place with the whole rest of the line behind it. -/
theorem finish_hands_on (hwf : engine.table.WF) (hbound : engine.LinesBound) {id : SessionId}
    {session : Session} {first : QueuedTrigger} {others : List QueuedTrigger}
    (hf : engine.table.find? id = some session) (hqueue : session.queue = first :: others)
    (hknown : (engine.world.player? session.player).isSome) (result : Except ScriptError Unit) :
    (engine.finish id result).table.inSlot? session.slot =
        some (first.id, ⟨session.player, first.trigger, .running, others⟩) ∧
      (engine.finish id result).log = engine.log ++
        [⟨⟨id, session.player, session.trigger⟩, .ended (.ofResult result)⟩,
          ⟨⟨first.id, session.player, first.trigger⟩, .started⟩] := by
  obtain ⟨front, rest, script, view, hq, hview, he⟩ | ⟨hcause, -⟩ :=
    hbound.finish_cases hwf hf result
  · rw [hqueue] at hq
    cases hq
    have hkey : first.trigger.key = session.trigger.key :=
      hwf.key_of_mem_queue id session hf first (by simp [hqueue])
    have hnext := (SessionTable.Change.handedOver hf hqueue).wf hwf
    rw [he, table_start, table_conclude, hview]
    constructor
    · apply hnext.inSlot?_iff.2
      rw [SessionTable.find?_add, if_pos rfl]
      exact ⟨rfl, by simp [Session.slot, hkey]⟩
    · simp [start, conclude, publish, hview]
  · rcases hcause with hempty | hgone
    · simp [hqueue] at hempty
    · simp [hgone] at hknown

/-- Every act advances the lines. -/
theorem advances_act (hwf : engine.table.WF) (hbound : engine.LinesBound) (act : Act) :
    Advances engine (engine.act act) (engine.admits act) (engine.Drops · act) := by
  cases act with
  | command command => exact advances_command hwf command
  | notice notice rest =>
    have hreceive : Advances { engine with notices := rest }
        (({ engine with notices := rest } : Engine).receive notice) []
        (engine.Drops · (.notice notice rest)) := by
      cases notice with
      | suspended id prompt resume =>
        apply @advances_suspend { engine with notices := rest } _ hwf
        intro slot session hs hbusy
        exact .cutOff hs (.conversationOpen (hwf.inSlot?_iff.1 hs).1 hbusy)
      | finished id result =>
        apply @advances_finish { engine with notices := rest } _ hwf hbound
        exact fun slot session hs hgone => .unknown hs hgone
    exact ⟨hreceive.next_eq, hreceive.numbers, hreceive.line⟩
  | poll id =>
    unfold Engine.act
    dsimp only
    cases engine.tasks.find? id with
    | none => exact advances_of_same rfl rfl
    | some task =>
      apply advances_of_same (table_poll _ _ _)
      simp [log_poll, starts, List.filter_map, Function.comp_def]
  | unpark id => exact advances_of_same rfl rfl
  | edit edit => exact advances_of_same rfl rfl

/-! ## Runs -/

/-- The subjects that the acts of a run admit, in the order of their admission. -/
def admissions (engine : Engine) : List Act → List Subject
  | [] => []
  | act :: acts => engine.admits act ++ admissions (engine.act act) acts

private theorem admissions_snoc (engine : Engine) (acts : List Act) (act : Act) :
    engine.admissions (acts ++ [act]) =
      engine.admissions acts ++ (engine.after acts).admits act := by
  induction acts generalizing engine with
  | nil => simp [admissions, after]
  | cons first acts ih =>
    rw [List.cons_append, admissions, admissions, ih, List.append_assoc]
    rfl

/-- At some point of the run the subject waits in line, and the next act drops that line. -/
def Dropped (engine : Engine) (acts : List Act) (subject : Subject) : Prop :=
  ∃ before act later, acts = before ++ act :: later ∧
    subject ∈ (engine.after before).line subject.slot ∧
    (engine.after before).Drops subject.slot act

private theorem Dropped.snoc {acts : List Act} {subject : Subject} (h : engine.Dropped acts subject)
    (act : Act) : engine.Dropped (acts ++ [act]) subject := by
  obtain ⟨before, dropping, later, rfl, hline, hdrops⟩ := h
  exact ⟨before, dropping, later ++ [act], by simp, hline, hdrops⟩

/-- Whoever is admitted has a script. -/
theorem bound_of_mem_admissions {acts : List Act} {subject : Subject}
    (h : subject ∈ engine.admissions acts) :
    (engine.registry.find? subject.trigger.key).isSome := by
  induction acts generalizing engine with
  | nil => cases h
  | cons act acts ih =>
    rcases List.mem_append.1 h with h | h
    · cases act with
      | command command =>
        cases command with
        | trigger player trigger =>
          obtain ⟨script, view, hs, -, -, -, ha⟩ | ⟨id, session, hs, -, -, ha⟩ | ⟨-, ha⟩ :=
            engine.act_trigger_cases player trigger <;> rw [ha] at h
          · rw [List.mem_singleton.1 h]
            exact hs
          · rw [List.mem_singleton.1 h]
            exact hs
          · cases h
        | respond | disconnect | playerMoved | sessions | shutdown => cases h
      | notice | poll | unpark | edit => cases h
    · rw [← engine.registry_act act]
      exact ih h

/-- The subjects admitted for a slot are those of the past and those in line; those of the past
started in order, or were dropped. -/
def Accounted (engine : Engine) (slot : Slot) (admitted : List Subject) (dropped : Subject → Prop) :
    Prop :=
  ∃ past, forSlot slot admitted = past ++ engine.line slot ∧
    (forSlot slot (starts engine.log)).Sublist past ∧
    ∀ subject ∈ past, subject ∈ starts engine.log ∨ dropped subject

/-- What an act does to the lines keeps the account. -/
theorem Accounted.advance {next : Engine} {slot : Slot} {admitted added : List Subject}
    {dropped later : Subject → Prop} (h : engine.Accounted slot admitted dropped)
    (ha : Advances engine next added drops) (hlater : ∀ subject, dropped subject → later subject)
    (hdropped : ∀ subject ∈ engine.line slot, drops slot → later subject) :
    next.Accounted slot (admitted ++ added) later := by
  obtain ⟨past, hpast, horder, hfate⟩ := h
  obtain ⟨started, hstarts, hline⟩ := ha.line
  rcases hline slot with he | ⟨hd, hadded, hstarted, hempty⟩
  · refine ⟨past ++ forSlot slot started, ?_, ?_, ?_⟩
    · rw [forSlot_append, hpast, List.append_assoc, he, List.append_assoc]
    · rw [hstarts, forSlot_append]
      exact horder.append (List.Sublist.refl _)
    · intro subject hm
      rw [hstarts, List.mem_append]
      rcases List.mem_append.1 hm with hm | hm
      · exact (hfate subject hm).imp .inl (hlater subject)
      · exact .inl (.inr (List.mem_filter.1 hm).1)
  · refine ⟨past ++ engine.line slot, ?_, ?_, ?_⟩
    · rw [forSlot_append, hpast, hadded, hempty]
    · rw [hstarts, forSlot_append, hstarted, List.append_nil]
      exact horder.trans (List.sublist_append_left _ _)
    · intro subject hm
      rw [hstarts, List.mem_append]
      rcases List.mem_append.1 hm with hm | hm
      · exact (hfate subject hm).imp .inl (hlater subject)
      · exact .inr (hdropped subject hm hd)

/-- What waits in line was admitted. -/
theorem Accounted.mem_admitted {slot : Slot} {admitted : List Subject} {dropped : Subject → Prop}
    (h : engine.Accounted slot admitted dropped) {subject : Subject}
    (hm : subject ∈ engine.line slot) : subject ∈ admitted := by
  obtain ⟨past, hpast, -⟩ := h
  have hmem : subject ∈ forSlot slot admitted := by
    rw [hpast]
    exact List.mem_append_right _ hm
  exact (List.mem_filter.1 hmem).1

/-- The subjects in a line are for its slot. -/
private theorem slot_of_mem_line (hwf : engine.table.WF) {slot : Slot} {subject : Subject}
    (h : subject ∈ engine.line slot) : subject.slot = slot := by
  obtain ⟨queued, hq, rfl⟩ := List.mem_map.1 h
  rw [Subject.slot, hwf.key_of_mem_queueIn hq]

/-- While all are accounted for, whatever waits was admitted and so has a script. -/
theorem linesBound_of_accounted {acts : List Act} {dropped : Subject → Prop}
    (h : ∀ slot, (engine.after acts).Accounted slot (engine.admissions acts) dropped) :
    (engine.after acts).LinesBound := by
  intro slot subject hm
  rw [registry_after]
  exact bound_of_mem_admissions ((h slot).mem_admitted hm)

theorem wf_after (registry : Registry) (world : World) (acts : List Act) :
    ((new registry world).after acts).table.WF :=
  (changes_after (new registry world) acts).wf SessionTable.wf_empty

/-- After any run the admitted subjects are numbered from 1 without gaps, and all are accounted
for. -/
theorem accounted_after (registry : Registry) (world : World) (acts : List Act) :
    let engine := (new registry world).after acts
    let admitted := (new registry world).admissions acts
    engine.table.next.val = 1 + admitted.length ∧
    admitted.map (fun subject => subject.session.val) = List.range' 1 admitted.length ∧
    ∀ slot, engine.Accounted slot admitted ((new registry world).Dropped acts) := by
  induction acts using List.reverseRecOn with
  | nil =>
    refine ⟨rfl, rfl, fun slot => ⟨[], rfl, List.Sublist.refl _, ?_⟩⟩
    exact fun subject h => absurd h List.not_mem_nil
  | append_singleton acts act ih =>
    obtain ⟨hnext, hnumbers, haccounted⟩ := ih
    have hwf := wf_after registry world acts
    have ha := advances_act hwf (linesBound_of_accounted haccounted) act
    rw [after_snoc, admissions_snoc]
    refine ⟨?_, ?_, ?_⟩
    · rw [ha.next_eq, hnext, List.length_append, Nat.add_assoc]
    · rw [List.map_append, hnumbers, ha.numbers, hnext, List.length_append,
        List.range'_append_1]
    · intro slot
      apply (haccounted slot).advance ha
      · exact fun subject hd => hd.snoc act
      · intro subject hm hd
        have hslot := slot_of_mem_line hwf hm
        subst hslot
        exact ⟨acts, act, [], rfl, hm, hd⟩

/-- No subject starts twice, as those of each slot start in the order of their admission. -/
private theorem nodup_starts {admitted : List Subject} {dropped : Subject → Prop}
    (hnodup : admitted.Nodup) (h : ∀ slot, engine.Accounted slot admitted dropped) :
    (starts engine.log).Nodup := by
  rw [List.nodup_iff_sublist]
  intro subject htwice
  obtain ⟨past, hpast, horder, -⟩ := h subject.slot
  have hslot : forSlot subject.slot [subject, subject] = [subject, subject] := by simp [forSlot]
  have hadmitted : [subject, subject].Sublist (forSlot subject.slot admitted) := by
    rw [hpast, ← hslot]
    exact ((htwice.filter _).trans horder).trans (List.sublist_append_left _ _)
  exact List.nodup_iff_sublist.1 (hnodup.filter _) subject hadmitted

/-- Whatever happens in whatever order, the accepted triggers are numbered 1, 2, 3 and so on. Those
of each slot start in the order of their admission, each with the trigger it was admitted with, and
none of them starts twice. A subject that neither started nor waits was dropped: it waited in line
when the engine cut off the session ahead of it, or when that session ended while the world did not
know the player. A session that ends by itself with a known player, whatever its result, is followed
by the front of its line, with the rest of the line behind it. -/
theorem served_in_order (registry : Registry) (world : World) (acts : List Act) :
    let engine := (new registry world).after acts
    let admitted := (new registry world).admissions acts
    admitted.map (fun subject => subject.session.val) = List.range' 1 admitted.length ∧
    (starts engine.log).Nodup ∧
    (∀ slot, ∃ past, forSlot slot admitted = past ++ engine.line slot ∧
      (forSlot slot (starts engine.log)).Sublist past ∧
      ∀ subject ∈ past, subject ∈ starts engine.log ∨ (new registry world).Dropped acts subject) ∧
    (∀ id session first others result rest, engine.table.find? id = some session →
      session.queue = first :: others → (engine.world.player? session.player).isSome →
      let next := engine.act (.notice (.finished id result) rest)
      next.table.inSlot? session.slot =
          some (first.id, ⟨session.player, first.trigger, .running, others⟩) ∧
        next.log = engine.log ++
          [⟨⟨id, session.player, session.trigger⟩, .ended (.ofResult result)⟩,
            ⟨⟨first.id, session.player, first.trigger⟩, .started⟩]) := by
  intro engine admitted
  obtain ⟨-, hnumbers, haccounted⟩ := accounted_after registry world acts
  have hnodup : admitted.Nodup := by
    apply List.Nodup.of_map fun subject => subject.session.val
    rw [hnumbers]
    exact List.nodup_range'
  refine ⟨hnumbers, nodup_starts hnodup haccounted, haccounted, ?_⟩
  intro id session first others result rest hf hqueue hknown
  exact @finish_hands_on { engine with notices := rest } (wf_after registry world acts)
    (linesBound_of_accounted haccounted) _ _ _ _ hf hqueue hknown result

end Engine
end Encounter
