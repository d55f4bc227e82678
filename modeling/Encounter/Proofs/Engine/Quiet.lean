import Encounter.Proofs.Conversation.Behind
import Encounter.Proofs.Engine.Staffed

/-!
# Every command leads to quiet

A command starts or resumes a task at most, but a session that ends starts the one queued behind it, so
one command may run a whole chain. The chain comes to its end in whatever order it is worked off, and
then every session waits for an answer or is parked (`command_leads_to_quiet`).
-/

namespace Encounter
namespace Engine

variable {engine next : Engine}

/-- The state arises from that of a new engine by commands, work, releases and changes of the world, in
any order. -/
inductive Arises : Engine → Prop where
  | new (registry : Registry) (world : World) : Arises (new registry world)
  | handle {engine : Engine} (h : Arises engine) (command : Command) :
      Arises (engine.handle command).1
  | work {engine next : Engine} (h : Arises engine) (step : Works engine next) : Arises next
  | unpark {engine : Engine} {id : SessionId} {task : Task} (h : Arises engine)
      (found : engine.tasks.find? id = some task) :
      Arises { engine with tasks := engine.tasks.insert id { task with parked := false } }
  | edit {engine : Engine} (h : Arises engine) (change : World → World) :
      Arises (engine.editWorld change)

private theorem Arises.worksTo (h : engine.Arises) (hw : WorksTo engine next) : next.Arises := by
  induction hw with
  | refl => exact h
  | tail _ step ih => exact ih.work step

/-- An act that takes the oldest notice, if any, leads to such a state again. -/
theorem Arises.act (h : engine.Arises) {act : Act} (ht : engine.Takes act) :
    (engine.act act).Arises := by
  cases act with
  | command command => exact h.handle command
  | notice notice rest => exact h.work (.receives ht)
  | poll id =>
    unfold Engine.act
    dsimp only
    cases hf : engine.tasks.find? id with
    | none => exact h
    | some task =>
      -- A parked task is polled as if it had just been released.
      have hpoll := (h.unpark hf).worksTo (worksTo_poll (Table.find?_insert_self _ _ _) rfl)
      rwa [poll_insert] at hpoll
  | unpark id =>
    unfold Engine.act
    dsimp only
    cases hf : engine.tasks.find? id with
    | none =>
      rw [Table.modify_of_find?_eq_none _ hf]
      exact h
    | some task =>
      rw [Table.modify_eq_insert _ hf]
      exact h.unpark hf
  | edit change => exact h.edit change

theorem Arises.after (h : engine.Arises) {acts : List Act} (horder : engine.InOrder acts) :
    (engine.after acts).Arises := by
  induction acts generalizing engine with
  | nil => exact h
  | cons act acts ih => exact ih (h.act horder.1) horder.2

/-- States that are reached with each task run from stop to stop are among them. -/
private theorem Reachable.arises (h : engine.Reachable) : engine.Arises := by
  obtain ⟨registry, world, acts, horder, rfl⟩ := h
  exact (Arises.new registry world).after horder

/-- Work changes the table in its ways. -/
theorem Works.changes (h : Works engine next) :
    SessionTable.Changes engine.table next.table := by
  cases h with
  | receives notices =>
    obtain ⟨events, hm⟩ := proceeds_receive notices rfl
    exact hm.changes
  | emits found => exact .refl
  | stops found ready last => rw [table_poll]

/-- Work keeps the state of the engine together. -/
theorem Works.wf (h : Works engine next) (hwf : engine.WF) : next.WF := by
  cases h with
  | receives notices =>
    obtain ⟨events, hm⟩ := proceeds_receive notices rfl
    exact hm.wf hwf
  | emits found =>
    refine ⟨hwf.table, fun other => ?_, hwf.called⟩
    apply fits_insert hwf.fits found <;> rfl
  | stops found ready last => exact (Move.polled found).wf hwf

theorem Arises.wf (h : engine.Arises) : engine.WF := by
  induction h with
  | new registry world => exact wf_new registry world
  | @handle engine _ command ih =>
    obtain ⟨events, hm⟩ := engine.moves_handle command
    exact hm.wf ih
  | work _ step ih => exact step.wf ih
  | unpark _ found ih => exact (Move.unparked found).wf ih
  | edit _ change ih => exact (Move.edited change).wf ih

theorem Arises.staffed (h : engine.Arises) : ∀ id, engine.Staffed id := by
  induction h with
  | new registry world => exact staffed_new registry world
  | handle _ command ih => exact staffed_handle ih command
  | work _ step ih => exact step.staffed ih
  | unpark _ found ih => exact staffed_insert ih rfl rfl rfl
  | edit _ change ih => exact fun id => (ih id).congr rfl rfl rfl

/-- The session of a script that has ended waits to be told so, or is gone. -/
theorem Works.ended (h : Works engine next) {id : SessionId} {result : Except ScriptError Unit}
    (hcalled : engine.table.Called id)
    (hended : .finished id result ∈ engine.notices ∨ engine.table.find? id = none) :
    .finished id result ∈ next.notices ∨ next.table.find? id = none := by
  rcases hended with hwaits | hgone
  · cases h with
    | @receives notice rest notices =>
      rw [notices, List.mem_cons] at hwaits
      rw [notices_receive]
      rcases hwaits with rfl | hwaits
      · have hfind := @find?_finish { engine with notices := rest } id hcalled id result
        exact .inr (hfind.trans (if_pos rfl))
      · exact .inl hwaits
    | emits found => exact .inl hwaits
    | @stops polled task found ready last =>
      obtain ⟨notice, -, -, hnotices⟩ | ⟨script, -, hnotices⟩ := engine.poll_cases polled task
      · rw [hnotices]
        exact .inl (List.mem_append_left _ hwaits)
      · rw [hnotices]
        exact .inl hwaits
  · exact .inr (SessionTable.Changes.find?_eq_none h.changes hcalled hgone)

/-- Once the notices are handled the session is gone. -/
private theorem Arises.find?_eq_none_of_finished (h : engine.Arises) {id : SessionId}
    {result : Except ScriptError Unit} (hn : .finished id result ∈ engine.notices)
    (hw : WorksTo engine next) (hnotices : next.notices = []) : next.table.find? id = none := by
  have hpending : 0 < engine.pending id := List.countP_pos_iff.2 ⟨_, hn, decide_eq_true rfl⟩
  have hkept : next.table.Called id ∧
      (.finished id result ∈ next.notices ∨ next.table.find? id = none) := by
    clear hnotices
    induction hw with
    | refl => exact ⟨h.wf.called id hpending, .inl hn⟩
    | tail _ step ih => exact ⟨SessionTable.Changes.called step.changes ih.1, step.ended ih.1 ih.2⟩
  apply hkept.2.resolve_left
  rw [hnotices]
  exact List.not_mem_nil

/-- Nothing goes on: no notice is under way, and every session waits for an answer or is parked. -/
structure AtRest (engine : Engine) : Prop where
  notices : engine.notices = []
  /-- A session shows a prompt, or it has a task and that is parked. -/
  waits : ∀ id session, engine.table.find? id = some session →
    (∃ prompt resume, session.phase = .suspended prompt resume) ∨
      ∃ task, engine.tasks.find? id = some task ∧ task.parked = true ∧
        task.origin = ⟨session.player, session.trigger⟩
  /-- No other session has a task. -/
  parked : ∀ id task, engine.tasks.find? id = some task → task.parked = true ∧
    ∃ session, engine.table.find? id = some session ∧ session.phase = .running

/-- The work that began in one state is over in the other. -/
def WorksOut (engine next : Engine) : Prop :=
  WorksTo engine next ∧ ∀ further, ¬ Works next further

/-- Coming to rest is one way to work everything off. -/
private theorem worksOut_settle (engine : Engine) : WorksOut engine engine.settle :=
  ⟨engine.worksTo_settle, forall_not_works_iff.2 engine.step?_settle⟩

/-- Where no work is left the engine is at rest. -/
theorem Arises.atRest (h : engine.Arises) (hover : ∀ further, ¬ Works engine further) :
    engine.AtRest := by
  obtain ⟨hnotices, hparked⟩ := step?_eq_none_iff.1 (forall_not_works_iff.1 hover)
  refine ⟨hnotices, ?_, ?_⟩
  · intro id session hf
    cases hphase : session.phase with
    | suspended prompt resume => exact .inl ⟨prompt, resume, rfl⟩
    | running =>
      obtain ⟨task, ht⟩ | hpending := h.staffed id session hf hphase
      · obtain ⟨found, hfound, -, horigin, -⟩ := (h.wf.fits id).task task ht
        rw [hf] at hfound
        cases hfound
        exact .inr ⟨task, ht, hparked id task ht, horigin⟩
      · rw [pending, hnotices] at hpending
        exact absurd hpending (Nat.lt_irrefl 0)
  · intro id task ht
    obtain ⟨session, hf, hphase, -, -⟩ := (h.wf.fits id).task task ht
    exact ⟨hparked id task ht, session, hf, hphase⟩

/-- Whatever the scripts, the sessions and their queues, the work that follows a command does not go on
for ever, in whatever order it is done. When it is over no notice is under way, every session that is
left waits for an answer or is parked, and the sessions whose scripts ended on the way are gone. The
state that the command leads to is such an end. -/
theorem command_leads_to_quiet (h : engine.Arises) (command : Command) :
    let begun := (engine.handle command).1
    (∀ run : Nat → Engine, run 0 = begun → ∃ n, ¬ Works (run n) (run (n + 1))) ∧
    WorksOut begun (engine.perform command).1 ∧
    ∀ final, WorksOut begun final → final.AtRest ∧
      ∀ middle id result, WorksTo begun middle → WorksTo middle final →
        .finished id result ∈ middle.notices → final.table.find? id = none := by
  intro begun
  have hbegun : begun.Arises := h.handle command
  refine ⟨fun run _ => exists_not_works run, begun.worksOut_settle, ?_⟩
  rintro final ⟨hw, hover⟩
  have hrest := (hbegun.worksTo hw).atRest hover
  refine ⟨hrest, ?_⟩
  intro middle id result hmiddle hfinal hn
  exact (hbegun.worksTo hmiddle).find?_eq_none_of_finished hn hfinal hrest.notices

/-- The sign is put away while the notice of the first errand is under way: the first errand and the
sign end, and the second errand starts and parks. -/
theorem command_leads_to_quiet_errand :
    let final := (errandTwice.perform (.respond ⟨1⟩ .dismissed)).1
    errandTwice.Arises ∧ final.AtRest ∧ final.table.find? ⟨1⟩ = none ∧
      final.table.infos = [⟨⟨2⟩, ⟨1⟩, .npc ⟨1⟩ ⟨5⟩, none⟩] := by
  intro final
  have harises : errandTwice.Arises := reachable_errandTwice.arises
  obtain ⟨-, hover, hfinal⟩ := command_leads_to_quiet harises (.respond ⟨1⟩ .dismissed)
  obtain ⟨hrest, hgone⟩ := hfinal _ hover
  refine ⟨harises, hrest, hgone _ ⟨1⟩ (.ok ()) .refl hover.1 ?_, by decide +kernel⟩
  exact List.mem_singleton_self _

end Engine
end Encounter
