import Encounter.Proofs.Chronicle.WellFormed
import Encounter.Proofs.Chronicle.Life
import Encounter.Proofs.Session.Info

/-!
# The chronicle and the table agree

What was noted down about a number fits what clients see of it: an active session has a tale that
leaves open just the prompt it waits on, a number whose session is gone has a tale that ended or
none at all, and a number that had no turn yet was never noted down. Every move keeps this.
-/

namespace Encounter
namespace Engine

/-- The notes tell what became of that number. -/
structure Tells (engine : Engine) (notes : List Entry) (id : SessionId) : Prop where
  active : ∀ info, engine.table.info? id = some info →
    Tale ⟨id, info.player, info.trigger⟩ info.prompt (notesOf id notes)
  gone : engine.table.info? id = none → notesOf id notes = [] ∨ Over id (notesOf id notes)
  uncalled : ¬ engine.table.Called id → notesOf id notes = []

variable {engine next : Engine} {notes added : List Entry} {id : SessionId}

/-- A move tells nothing about a number that is neither seen nor noted down in another way. -/
private theorem Tells.frame (h : engine.Tells notes id) (hm : Move engine added next)
    (hinfo : next.table.info? id = engine.table.info? id) (hnew : notesOf id added = []) :
    next.Tells (notes ++ added) id := by
  have hnotes : notesOf id (notes ++ added) = notesOf id notes := by
    rw [notesOf_append, hnew, List.append_nil]
  refine ⟨?_, ?_, ?_⟩
  · intro info hi
    rw [hinfo] at hi
    rw [hnotes]
    exact h.active info hi
  · intro hi
    rw [hinfo] at hi
    rw [hnotes]
    exact h.gone hi
  · intro hc
    rw [hnotes]
    exact h.uncalled fun hcalled => hc (hm.changes.called hcalled)

/-- A session that is active after a move had its turn. -/
private theorem Tells.of_active {info : SessionInfo} (hwf : next.WF)
    (hinfo : next.table.info? id = some info)
    (htale : Tale ⟨id, info.player, info.trigger⟩ info.prompt (notesOf id notes)) :
    next.Tells notes id := by
  refine ⟨?_, ?_, ?_⟩
  · intro other hi
    rw [hinfo] at hi
    cases hi
    exact htale
  · intro hi
    rw [hinfo] at hi
    cases hi
  · intro hc
    obtain ⟨session, hf, -⟩ := SessionTable.find?_of_info? hinfo
    exact absurd (hwf.table.called hf) hc

/-- A session that is over had its turn. -/
private theorem Tells.of_over (hinfo : next.table.info? id = none) (hcalled : next.table.Called id)
    (hover : Over id (notesOf id notes)) : next.Tells notes id where
  active info hi := by
    rw [hinfo] at hi
    cases hi
  gone _ := .inr hover
  uncalled hc := absurd hcalled hc

/-- The tale of an active session. -/
private theorem Tells.tale (h : engine.Tells notes id) {session : Session}
    (hf : engine.table.find? id = some session) :
    Tale ⟨id, session.player, session.trigger⟩ session.phase.prompt? (notesOf id notes) :=
  h.active _ (SessionTable.info?_of_find? hf)

/-- Notes about a session go to the end of its notes. -/
private theorem notesOf_append_own {id : SessionId} (h : ∀ entry ∈ added, entry.session = id)
    (notes : List Entry) : notesOf id (notes ++ added) = notesOf id notes ++ added := by
  rw [notesOf_append, notesOf_eq_self h]

/-- A move about one session has to be looked at for that session only. -/
private theorem tells_of_about (h : ∀ id, engine.Tells notes id) (hm : Move engine added next)
    {about : SessionId} {info? : Option SessionInfo} (hnew : ∀ entry ∈ added, entry.session = about)
    (hinfo : ∀ id, next.table.info? id = if id = about then info? else engine.table.info? id)
    (habout : next.table.info? about = info? → next.Tells (notes ++ added) about)
    (id : SessionId) : next.Tells (notes ++ added) id := by
  by_cases ho : id = about
  · subst ho
    exact habout ((hinfo id).trans (if_pos rfl))
  · apply (h id).frame hm ((hinfo id).trans (if_neg ho))
    apply notesOf_eq_nil
    intro entry hentry he
    exact ho (he.symm.trans (hnew entry hentry))

/-- A session without notes starts. -/
theorem Tells.start (hwf : next.WF) {player : PlayerId} {trigger : Trigger}
    (hinfo : next.table.info? id = some ⟨id, player, trigger, none⟩)
    (hnone : notesOf id notes = []) :
    next.Tells (notes ++ [.event ⟨⟨id, player, trigger⟩, .started⟩]) id := by
  apply Tells.of_active hwf hinfo
  rw [notesOf_append_own, hnone]
  · exact .started
  · simp [Entry.session, Event.session]

/-- An active session ends. -/
theorem Tells.stop (h : engine.Tells notes id) (hwf : engine.WF) (hm : Move engine added next)
    {session : Session} (hf : engine.table.find? id = some session)
    (hinfo : next.table.info? id = none) (outcome : Outcome) :
    next.Tells (notes ++ [.event ⟨⟨id, session.player, session.trigger⟩, .ended outcome⟩]) id := by
  apply Tells.of_over hinfo (hm.changes.called (hwf.table.called hf))
  rw [notesOf_append_own]
  · exact .ended outcome rfl (h.tale hf)
  · simp [Entry.session, Event.session]

/-- A session ends and the first trigger behind it starts, which was never noted down before. -/
private theorem tells_handedOver {about : SessionId} {session : Session} {first : QueuedTrigger}
    {outcome : Outcome} {player : PlayerId} (hwf : engine.WF)
    (h : ∀ id, engine.Tells notes id) (found : engine.table.find? about = some session)
    (queued : first ∈ session.queue)
    (hm : Move engine [.event ⟨⟨about, session.player, session.trigger⟩, .ended outcome⟩,
      .event ⟨⟨first.id, player, first.trigger⟩, .started⟩] next)
    (hinfo : ∀ id, next.table.info? id =
      if id = first.id then some ⟨first.id, player, first.trigger, none⟩
      else if id = about then none else engine.table.info? id) (id : SessionId) :
    next.Tells (notes ++ [.event ⟨⟨about, session.player, session.trigger⟩, .ended outcome⟩,
      .event ⟨⟨first.id, player, first.trigger⟩, .started⟩]) id := by
  have hcalled := hwf.table.called found
  have hwaits := SessionTable.not_called_of_mem_queue found queued
  have hne : about ≠ first.id := fun he => hwaits (he ▸ hcalled)
  have hinfo := hinfo id
  by_cases hfirst : id = first.id
  · subst hfirst
    rw [if_pos rfl] at hinfo
    rw [List.append_cons]
    apply Tells.start (hm.wf hwf) hinfo
    rw [notesOf_append, (h _).uncalled hwaits, notesOf_eq_nil]
    · rfl
    · simpa [Entry.session, Event.session] using hne
  · rw [if_neg hfirst] at hinfo
    by_cases ho : id = about
    · subst ho
      rw [if_pos rfl] at hinfo
      have hother : notesOf id [.event ⟨⟨first.id, player, first.trigger⟩, .started⟩] = [] := by
        apply notesOf_eq_nil
        simpa [Entry.session, Event.session] using Ne.symm hfirst
      apply Tells.of_over hinfo (hm.changes.called hcalled)
      rw [List.append_cons, notesOf_append, hother, List.append_nil, notesOf_append_own]
      · exact .ended outcome rfl ((h id).tale found)
      · simp [Entry.session, Event.session]
    · rw [if_neg ho] at hinfo
      apply (h id).frame hm hinfo
      apply notesOf_eq_nil
      simpa [Entry.session, Event.session] using ⟨Ne.symm ho, Ne.symm hfirst⟩

/-- Every move keeps the chronicle in agreement with the table. -/
theorem Move.tells (hm : Move engine added next) (hwf : engine.WF)
    (h : ∀ id, engine.Tells notes id) (id : SessionId) : next.Tells (notes ++ added) id := by
  have hnext : next.WF := hm.wf hwf
  cases hm with
  | opened free =>
    apply tells_of_about h (.opened free) (by simp [Entry.session, Event.session])
      (fun id => SessionTable.info?_add _ _ _ _) ?_ id
    intro hinfo
    exact Tells.start hnext hinfo ((h _).uncalled engine.table.not_called_next)
  | queued taken => exact (h id).frame (.queued taken) (SessionTable.info?_enqueue _ _ _ _) rfl
  | @resumed about session script found waiting =>
    apply tells_of_about h (.resumed found waiting) (by simp [Entry.session])
      (SessionTable.info?_setPhase found .running) ?_ id
    intro hinfo
    apply Tells.of_active hnext hinfo
    have htale := (h about).tale found
    obtain ⟨prompt, hp⟩ := Option.isSome_iff_exists.1 waiting
    rw [hp] at htale
    rw [notesOf_append_own]
    · exact htale.replied
    · simp [Entry.session]
  | @cancelled about session reason found =>
    have hremove := fun id => engine.table.info?_remove about id session
    rw [← table_cancel found reason] at hremove
    apply tells_of_about h (.cancelled found) (by simp [Entry.session, Event.session]) hremove ?_ id
    intro hinfo
    exact (h about).stop hwf (.cancelled found) found hinfo _
  | dropped notices => exact (h id).frame (.dropped notices) rfl rfl
  | @awaited about session prompt resume rest notices found alone =>
    apply tells_of_about h (.awaited notices found alone) (by simp [Entry.session, Event.session])
      (SessionTable.info?_setPhase found (.suspended prompt resume)) ?_ id
    intro hinfo
    apply Tells.of_active hnext hinfo
    have hp := pending_cons notices about
    simp only [Notice.session, if_true] at hp
    have hrun := ((hwf.fits about).notice session found (by omega)).1
    have htale := (h about).tale found
    rw [hrun] at htale
    rw [notesOf_append_own]
    · exact htale.prompted prompt
    · simp [Entry.session, Event.session]
  | @finished about session result rest notices found =>
    apply tells_of_about h (.finished notices found) (by simp [Entry.session, Event.session])
      (fun id => SessionTable.info?_remove _ _ _ _) ?_ id
    intro hinfo
    exact (h about).stop hwf (.finished notices found) found hinfo _
  | @handedOver about session result rest first others view script notices found queue player =>
    have hqueued : first ∈ session.queue := by
      rw [queue]
      exact List.mem_cons_self
    apply tells_handedOver hwf h found hqueued (.handedOver notices found queue player)
    intro id
    rw [table_start, SessionTable.info?_add, table_conclude, SessionTable.info?_remove]
    rfl
  | @polled about task found =>
    obtain ⟨session, hf, hrun, horigin, -⟩ := (hwf.fits about).task task found
    have hsame : ∀ id, (engine.poll about task).table.info? id =
        if id = about then engine.table.info? about else engine.table.info? id := by
      intro id
      rw [table_poll]
      split
      · next he => rw [he]
      · rfl
    apply tells_of_about h (.polled found) (by simp [Entry.session, Event.session]) hsame ?_ id
    intro hinfo
    have htale := (h about).tale hf
    rw [hrun] at htale
    apply Tells.of_active hnext (hinfo.trans (SessionTable.info?_of_find? hf))
    rw [hrun, notesOf_append_own, horigin, List.map_map]
    · exact htale.effects _
    · simp [Entry.session, Event.session]
  | unparked found => exact (h id).frame (.unparked found) rfl rfl
  | edited change => exact (h id).frame (.edited change) rfl rfl
  | closed => exact (h id).frame .closed rfl rfl

/-- A new engine has nothing to tell. -/
theorem tells_new (registry : Registry) (world : World) (id : SessionId) :
    (new registry world).Tells [] id where
  active info h := by cases h
  gone _ := .inl rfl
  uncalled _ := rfl

/-- Any number of moves keep the chronicle in agreement with the table. -/
theorem Moves.tells (hm : Moves engine added next) (hwf : engine.WF)
    (h : ∀ id, engine.Tells notes id) (id : SessionId) : next.Tells (notes ++ added) id := by
  induction hm generalizing notes with
  | refl =>
    rw [List.append_nil]
    exact h id
  | head first _ ih =>
    rw [← List.append_assoc]
    exact ih (first.wf hwf) (first.tells hwf h)

/-- The chronicle of a run agrees with the table that the run leads to. -/
theorem tells_play (registry : Registry) (world : World) (operations : List Operation)
    (id : SessionId) :
    ((new registry world).play operations).Tells
      ((new registry world).chronicle operations) id := by
  have hm := (new registry world).moves_play operations
  exact hm.tells (wf_new registry world) (tells_new registry world) id

end Engine
end Encounter
