import Encounter.Proofs.Chronicle.Play
import Encounter.Proofs.Chronicle.Told

/-!
# The log is a faithful record

After any run of operations the log shows each session as one life, and the listing of the sessions
can be read off the chronicle.
-/

namespace Encounter

/-- The log has a start of that session. -/
def Started (log : List Event) (id : SessionId) : Prop :=
  ∃ event ∈ log, event.session = id ∧ event.happening = .started

/-- The log has an end of that session. -/
def Ended (log : List Event) (id : SessionId) : Prop :=
  ∃ event ∈ log, event.session = id ∧ ∃ outcome, event.happening = .ended outcome

namespace Engine

variable {engine : Engine} {notes : List Entry} {id : SessionId}

/-- What was noted down about a number is one life. -/
theorem Tells.lifeStory (h : engine.Tells notes id) :
    LifeStory id ((notesOf id notes).filterMap Entry.event?) := by
  cases hi : engine.table.info? id with
  | some info =>
    obtain ⟨between, he, hinner⟩ := (h.active info hi).events
    rw [he]
    exact .active rfl hinner
  | none =>
    rcases h.gone hi with hnil | hover
    · rw [hnil]
      exact .unborn
    · obtain ⟨subject, between, outcome, hs, hinner, he⟩ := hover.events
      rw [he]
      exact .ended hs hinner

/-- A session is active exactly if it started and did not end. -/
theorem Tells.active_iff (h : engine.Tells notes id) :
    (∃ info, engine.table.info? id = some info) ↔
      Started (notes.filterMap Entry.event?) id ∧ ¬ Ended (notes.filterMap Entry.event?) id := by
  have hmem : ∀ event, event ∈ (notesOf id notes).filterMap Entry.event? ↔
      event ∈ notes.filterMap Entry.event? ∧ event.session = id := by
    intro event
    rw [filterMap_notesOf, List.mem_filter, decide_eq_true_eq]
  cases hi : engine.table.info? id with
  | some info =>
    obtain ⟨between, he, hinner⟩ := (h.active info hi).events
    rw [he] at hmem
    refine ⟨fun _ => ⟨?_, ?_⟩, fun _ => ⟨info, rfl⟩⟩
    · obtain ⟨hm, hs⟩ := (hmem _).1 List.mem_cons_self
      exact ⟨_, hm, hs, rfl⟩
    · rintro ⟨event, hm, hs, outcome, ho⟩
      rcases List.mem_cons.1 ((hmem event).2 ⟨hm, hs⟩) with rfl | hb
      · cases ho
      · apply (hinner event hb).2
        rw [Event.topic, ho]
  | none =>
    constructor
    · rintro ⟨info, hinfo⟩
      cases hinfo
    · rintro ⟨⟨event, hm, hs, -⟩, hend⟩
      rcases h.gone hi with hnil | hover
      · rw [hnil] at hmem
        exact absurd ((hmem event).2 ⟨hm, hs⟩) List.not_mem_nil
      · obtain ⟨subject, between, outcome, -, -, he⟩ := hover.events
        rw [he] at hmem
        obtain ⟨hlast, hsession⟩ := (hmem ⟨subject, .ended outcome⟩).1 (by simp)
        exact absurd ⟨_, hlast, hsession, outcome, rfl⟩ hend

/-- The start of an active session shows its player and trigger. -/
theorem Tells.start_mem (h : engine.Tells notes id) {info : SessionInfo}
    (hi : engine.table.info? id = some info) :
    ⟨⟨id, info.player, info.trigger⟩, .started⟩ ∈ notes.filterMap Entry.event? := by
  obtain ⟨between, he, -⟩ := (h.active info hi).events
  have hm : ⟨⟨id, info.player, info.trigger⟩, .started⟩ ∈
      (notesOf id notes).filterMap Entry.event? := by
    rw [he]
    exact List.mem_cons_self
  rw [filterMap_notesOf] at hm
  exact (List.mem_filter.1 hm).1

/-- After any run of operations the engine is quiet and the log shows each session as one life:
nothing, a start, or a start and an end, with all prompts and effects in between and the same player
and trigger throughout. Unless there was a shutdown, the sessions that started and did not end are
listed in ascending order, each as it started, and waiting on a prompt exactly if that prompt is its
latest one and no reply to it was accepted. -/
theorem log_faithful (registry : Registry) (world : World) (operations : List Operation) :
    let engine := (new registry world).play operations
    let notes := (new registry world).chronicle operations
    engine.isQuiet = true ∧ notes.filterMap Entry.event? = engine.log ∧
    (∀ id, LifeStory id (engine.log.filter fun event => event.session = id)) ∧
    (.command .shutdown ∈ operations ∧ (engine.perform .sessions).2 = .error .closed ∨
      .command .shutdown ∉ operations ∧ ∃ infos,
        (engine.perform .sessions).2 = .ok (.sessions infos) ∧
        (infos.map SessionInfo.id).Pairwise (fun a b => a.val < b.val) ∧
        (∀ id, id ∈ infos.map SessionInfo.id ↔ Started engine.log id ∧ ¬ Ended engine.log id) ∧
        ∀ info ∈ infos, ⟨⟨info.id, info.player, info.trigger⟩, .started⟩ ∈ engine.log ∧
          ∀ prompt, info.prompt = some prompt ↔ OpenPrompt notes info.id prompt) := by
  intro engine notes
  have htells : ∀ id, engine.Tells notes id := tells_play registry world operations
  have hlog : notes.filterMap Entry.event? = engine.log :=
    ((new registry world).moves_play operations).log.symm
  have hquiet : engine.isQuiet = true := by
    rw [isQuiet, quiet_play rfl operations]
    rfl
  refine ⟨hquiet, hlog, ?_, ?_⟩
  · intro id
    have hlife := (htells id).lifeStory
    rw [filterMap_notesOf, hlog] at hlife
    exact hlife
  · by_cases hs : .command .shutdown ∈ operations
    · have hclosed := accepting_play_of_shutdown (new registry world) hs
      refine .inl ⟨hs, ?_⟩
      rw [perform, handle_of_not_accepting hclosed]
    · have haccepting := (alike_play (new registry world) hs).accepting
      refine .inr ⟨hs, engine.table.infos, ?_, engine.table.pairwise_infos, ?_, ?_⟩
      · rw [perform, handle, haccepting]
        rfl
      · intro id
        rw [SessionTable.mem_map_id_infos_iff, ← hlog]
        exact (htells id).active_iff
      · intro info hm
        have hinfo := SessionTable.mem_infos_iff.1 hm
        rw [← hlog]
        exact ⟨(htells info.id).start_mem hinfo, ((htells info.id).active info hinfo).prompt_iff⟩

end Engine
end Encounter
