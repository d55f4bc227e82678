import Encounter.Proofs.World.Ground
import Encounter.Proofs.Engine.Spares
import Encounter.Proofs.Chronicle.Faithful
import Encounter.Proofs.Conversation.Exclusive

/-!
# Players do not interfere

While the others rest, only operations on sessions of the player are left to do after a command of
that player. So the others are spared until the engine is quiet again, and the world changes by
effects for the player only.
-/

namespace Encounter
namespace Engine

variable {engine middle next : Engine} {player : PlayerId}

/-- The others rest: no notice about their sessions waits and their tasks are parked. -/
def OthersRest (player : PlayerId) (engine : Engine) : Prop :=
  ∀ id session, session.player ≠ player → engine.table.find? id = some session →
    engine.pending id = 0 ∧ ∀ task, engine.tasks.find? id = some task → task.parked = true

/-- Who is left alone rests on. -/
theorem OthersRest.spares (h : OthersRest player engine) (hwf : next.WF)
    (hspares : Spares player engine next) : OthersRest player next := by
  intro id session hother hf
  have hbefore := (hspares.session id session hother).1 hf
  obtain ⟨hpending, hparked⟩ := h id session hother hbefore
  refine ⟨(hspares.pending id session hother hbefore).trans hpending, fun task ht => ?_⟩
  obtain ⟨found, hfound, -, horigin, -⟩ := (hwf.fits id).task task ht
  rw [hf] at hfound
  cases hfound
  have hotherTask : task.origin.player ≠ player := by
    rw [horigin]
    exact hother
  exact hparked task ((hspares.task id task hotherTask).1 ht)

/-- While the others rest, a step is about a session of the player. -/
private theorem spares_of_step? (hwf : engine.WF) (hrest : OthersRest player engine)
    (hs : engine.step? = some next) : Spares player engine next := by
  obtain ⟨notice, rest, hn, rfl⟩ | ⟨id, task, -, hr, rfl⟩ := step?_cases hs
  · have hwaits := pending_cons hn notice.session
    have hmine : Owns player engine notice.session := by
      apply hwf.owns
      intro session hf
      apply Classical.byContradiction
      intro hother
      have hzero := (hrest notice.session session hother hf).1
      rw [if_pos rfl] at hwaits
      omega
    have hdrop := spares_drop hn hmine
    exact hdrop.trans (spares_receive ((Move.dropped hn).wf hwf) ⟨hmine.session, hmine.task⟩)
  · obtain ⟨ht, hrunning⟩ := of_readyTask?_eq_some hr
    refine spares_poll ht (hwf.owns fun session hf => ?_)
    apply Classical.byContradiction
    intro hother
    have hparked := (hrest id session hother hf).2 task ht
    rw [hrunning] at hparked
    cases hparked

/-- Coming to rest spares the others if they rest. -/
private theorem spares_settle (hwf : engine.WF) (hrest : OthersRest player engine) :
    Spares player engine engine.settle := by
  have hboth : engine.settle.WF ∧ Spares player engine engine.settle := by
    apply settle_induction (P := fun next => next.WF ∧ Spares player engine next)
      ⟨hwf, .refl player engine⟩
    rintro middle next ⟨hmiddle, hspares⟩ hs
    obtain ⟨events, hm⟩ := proceeds_of_step? hs
    exact ⟨hm.wf hmiddle, hspares.trans (spares_of_step? hmiddle (hrest.spares hmiddle hspares) hs)⟩
  exact hboth.2

/-- A command of a player spares the others, from a quiet state until the engine is quiet again. -/
theorem spares_perform (hwf : engine.WF) (hquiet : engine.step? = none) {command : Command}
    (hcommand : command.player? = some player) :
    Spares player engine (engine.perform command).1 := by
  obtain ⟨hnotices, hparked⟩ := step?_eq_none_iff.1 hquiet
  have hrest : OthersRest player engine := by
    intro id session hother hf
    refine ⟨?_, hparked id⟩
    rw [Engine.pending, hnotices]
    rfl
  have hhandle := spares_handle hwf hcommand
  have hwf' : (engine.handle command).1.WF := @WF.act engine hwf (.command command) trivial
  exact hhandle.trans (spares_settle hwf' (hrest.spares hwf' hhandle))

/-- The effects that are published, each with its player and trigger. -/
theorem mem_changes_iff {events : List Event} {change : World.Change} :
    change ∈ events.filterMap Event.change? ↔ ∃ subject effect,
      ⟨subject, .effected effect⟩ ∈ events ∧
        change = .effected ⟨subject.player, subject.trigger⟩ effect := by
  rw [List.mem_filterMap]
  constructor
  · rintro ⟨⟨subject, happening⟩, hm, hchange⟩
    cases happening with
    | effected effect => exact ⟨subject, effect, hm, (Option.some.inj hchange).symm⟩
    | prompted | started | ended => cases hchange
  · rintro ⟨subject, effect, hm, rfl⟩
    exact ⟨_, hm, rfl⟩

/-- Every event belongs to a session that started. -/
theorem Reachable.start_mem (h : engine.Reachable) {event : Event} (hm : event ∈ engine.log) :
    ⟨event.subject, .started⟩ ∈ engine.log := by
  obtain ⟨notes, hlog, htells⟩ := h.tells
  have hlife := (htells event.session).lifeStory
  rw [filterMap_notesOf, ← hlog] at hlife
  have hown : event ∈ engine.log.filter fun other => other.session = event.session :=
    List.mem_filter.2 ⟨hm, by simp⟩
  exact (List.mem_filter.1 (hlife.start_mem hown)).1

/-- Players do not interfere: whatever a command of one player leads to before the engine is quiet
again, the sessions and tasks of the others, their entries and all parties stay as they are. Nothing
is published about the others, and drops are only added to the ground: those of the player's
sessions, each on the map of its trigger. -/
theorem players_apart (h : engine.Reachable) (hquiet : engine.isQuiet = true) {command : Command}
    (hcommand : command.player? = some player) :
    let next := (engine.perform command).1
    next.isQuiet = true ∧
    (∀ id session, session.player ≠ player →
      (next.table.find? id = some session ↔ engine.table.find? id = some session)) ∧
    (∀ id task, task.origin.player ≠ player →
      (next.tasks.find? id = some task ↔ engine.tasks.find? id = some task)) ∧
    (∀ other ≠ player, next.world.players.find? other = engine.world.players.find? other) ∧
    next.world.parties = engine.world.parties ∧
    ∃ events, next.log = engine.log ++ events ∧
      (∀ event ∈ events, event.player = player ∧ ⟨event.subject, .started⟩ ∈ next.log) ∧
      ∀ map, next.world.groundDrops map = engine.world.groundDrops map ++
        (events.filterMap Event.change?).flatMap
          (World.Change.falls engine.world.reactors.find? map) := by
  intro next
  have hrests : next.step? = none := step?_settle _
  have hnone : engine.step? = none := Option.isNone_iff_eq_none.1 hquiet
  have hspares : Spares player engine next := spares_perform h.wf hnone hcommand
  have hreach : next.Reachable := by
    obtain ⟨acts, -, horder, he⟩ := engine.exists_acts_operate (.command command)
    rw [show next = _ from he.symm]
    exact h.after horder
  obtain ⟨events, hlog, hplayer, hworld⟩ := hspares.reports
  have heffects : ∀ change ∈ events.filterMap Event.change?, ∃ origin effect,
      change = .effected origin effect ∧ origin.player = player := by
    intro change hm
    obtain ⟨subject, effect, hevent, rfl⟩ := mem_changes_iff.1 hm
    exact ⟨_, effect, rfl, hplayer _ hevent⟩
  obtain ⟨hparties, -, hplayers, hground⟩ := engine.world.after_effects heffects
  rw [← hworld] at hparties hplayers hground
  refine ⟨Option.isNone_iff_eq_none.2 hrests, hspares.session, hspares.task, hplayers, hparties, events,
    hlog, ?_, hground⟩
  intro event hm
  refine ⟨hplayer event hm, hreach.start_mem ?_⟩
  rw [hlog]
  exact List.mem_append_right _ hm

/-- Ann has sent the NPC on an errand, wants another one and reads the sign; Bob is on the same map,
where there is a scrap box too. -/
def annReads : Engine :=
  (new (errandRegistry.insert (.reactor ScrapBox.reactor) ScrapBox.script)
    (errandWorld.upsertPlayer ⟨⟨2⟩, "Bob", 10, ⟨5⟩⟩)).play
    [.command (.trigger ⟨1⟩ (.npc ⟨1⟩ ⟨5⟩)), .command (.trigger ⟨1⟩ (.npc ⟨1⟩ ⟨5⟩)),
      .command (.trigger ⟨1⟩ (.reactor ⟨2⟩ ⟨5⟩))]

/-- When Bob hits the box, Ann's sessions stay, and what the box drops lies on their map. -/
theorem players_apart_box :
    let next := (annReads.perform (.trigger ⟨2⟩ (.reactor ScrapBox.reactor ⟨5⟩))).1
    annReads.isQuiet = true ∧
      (∃ errand sign, annReads.table.find? ⟨1⟩ = some errand ∧ errand.queue ≠ [] ∧
        next.table.find? ⟨1⟩ = some errand ∧ annReads.table.find? ⟨3⟩ = some sign ∧
        sign.isSuspended = true ∧ next.table.find? ⟨3⟩ = some sign) ∧
      next.world.groundDrops ⟨5⟩ = annReads.world.groundDrops ⟨5⟩ ++
        ScrapBox.drops.layout .origin := by
  intro next
  have hreach : annReads.Reachable := reachable_play _ _ _
  obtain ⟨-, hsessions, -, -, -, events, hlog, -, hground⟩ :=
    @players_apart annReads ⟨2⟩ hreach rfl (.trigger ⟨2⟩ (.reactor ScrapBox.reactor ⟨5⟩)) rfl
  refine ⟨rfl, ?_, ?_⟩
  · refine ⟨_, _, rfl, List.cons_ne_nil _ _, ?_, rfl, rfl, ?_⟩
    · exact (hsessions ⟨1⟩ _ (by decide)).2 rfl
    · exact (hsessions ⟨3⟩ _ (by decide)).2 rfl
  · let box : Subject := ⟨⟨4⟩, ⟨2⟩, .reactor ScrapBox.reactor ⟨5⟩⟩
    have hnext : next.log = annReads.log ++
        [⟨box, .started⟩, ⟨box, .effected (.dropItems ScrapBox.drops)⟩, ⟨box, .ended .completed⟩] :=
      rfl
    rw [hground, List.append_cancel_left (hlog.symm.trans hnext)]
    rfl

end Engine
end Encounter
