import Encounter.Proofs.Conversation.Beside
import Encounter.Proofs.Console.Whereabouts
import Encounter.Proofs.Cancellation.Exact

/-!
# Dialogues are open where the hero stands

The console walks to what it touches, and a walk from elsewhere cuts off the open dialogue. As long as
scripts ask before they warp and ask nothing afterwards, the hero and the console's own map stay
where the dialogue was begun until it is over.
-/

namespace Encounter
namespace Console

/-- A session of the hero that waits on a prompt, with nothing queued behind it, where the hero stands
and where the console believes the hero to be. Whatever is answered, the script never parks, and
warps last. -/
structure Attended (silent : MapId → Prop) (console : Console) (session : Session) : Prop where
  player : session.player = hero
  queue : session.queue = []
  waits : ∃ prompt next, session.phase = .suspended prompt next ∧
    ∀ answer, (next answer).NeverParks ∧ (next answer).WarpsLast
  asks : ¬ silent session.trigger.map
  here : console.world.playerMap? hero = some session.trigger.map
  map : console.map = session.trigger.map

/-- The console is well-formed, its scripts are courteous, and all its sessions are attended. -/
structure Attentive (silent : MapId → Prop) (console : Console) : Prop where
  wf : console.WF
  courteous : console.engine.registry.Courteous silent
  attended : ∀ id session, console.engine.table.find? id = some session →
    Attended silent console session

variable {silent : MapId → Prop} {console next : Console}

theorem Attended.isSuspended {session : Session} (h : Attended silent console session) :
    session.isSuspended = true := by
  obtain ⟨prompt, next, hphase, -⟩ := h.waits
  rw [Session.isSuspended, hphase]
  rfl

/-- A session stays attended as long as neither the hero nor the console's own map goes
elsewhere. -/
theorem Attended.congr {session : Session} (h : Attended silent console session)
    (hhere : next.world.playerMap? hero = console.world.playerMap? hero)
    (hmap : next.map = console.map) : Attended silent next session :=
  ⟨h.player, h.queue, h.waits, h.asks, hhere.trans h.here, hmap.trans h.map⟩

namespace Attentive

/-- At most one session is there. -/
private theorem eq_of_find? (h : console.Attentive silent) {id other : SessionId}
    {session found : Session} (hf : console.engine.table.find? id = some session)
    (ho : console.engine.table.find? other = some found) : id = other :=
  h.wf.played.reachable.oneDialogue hero id other
    ⟨session, hf, (h.attended id session hf).player, (h.attended id session hf).isSuspended⟩
    ⟨found, ho, (h.attended other found ho).player, (h.attended other found ho).isSuspended⟩

/-- Nothing changes for the sessions that stay. -/
theorem keep (h : console.Attentive silent) (hwf : next.WF)
    (hregistry : next.engine.registry = console.engine.registry)
    (hold : ∀ id session, next.engine.table.find? id = some session →
      console.engine.table.find? id = some session)
    (hhere : ∀ id session, console.engine.table.find? id = some session →
      next.world.playerMap? hero = console.world.playerMap? hero ∧ next.map = console.map) :
    next.Attentive silent where
  wf := hwf
  courteous := by
    rw [hregistry]
    exact h.courteous
  attended id session hf := by
    obtain ⟨hplace, hmap⟩ := hhere id session (hold id session hf)
    exact (h.attended id session (hold id session hf)).congr hplace hmap

private theorem registry_ask (console : Console) (command : Encounter.Command) :
    (console.ask command).engine.registry = console.engine.registry :=
  ((console.engine.handle command).1.alike_settle.registry).trans
    (console.engine.registry_handle command)

/-- A request that changes nothing at once changes nothing at all. -/
private theorem ask_of_same (h : console.Attentive silent) {command : Encounter.Command}
    (hsame : (console.engine.handle command).1 = console.engine) : console.ask command = console := by
  show { console with engine := (console.engine.handle command).1.settle } = console
  rw [hsame, Engine.settle_of_quiet h.wf.played.quiet]

/-- A session of the hero has its turn, where the hero stands. It may warp the hero only if no other
session waits. -/
private theorem of_turn {begun : Engine} {subject : Subject} {script : Script Unit}
    (h : console.Attentive silent) (hwf : next.WF) (hturn : Engine.HasTurn begun subject script)
    (hfound : begun.table.find? subject.session = some (subject.inPhase .running))
    (hplayer : subject.player = hero) (hparks : script.NeverParks) (hlast : script.WarpsLast)
    (hsettled : next.engine = begun.settle) (hmap : next.map = subject.trigger.map)
    (hregistry : next.engine.registry = console.engine.registry)
    (hhere : begun.world.playerMap? hero = some subject.trigger.map)
    (hmute : silent subject.trigger.map → script.Mute)
    (hothers : ∀ id session, id ≠ subject.session → begun.table.find? id = some session →
      console.engine.table.find? id = some session ∧ session.trigger.map = subject.trigger.map ∧
        ∀ effect ∈ script.advance.1, effect.isWarp = false) : next.Attentive silent := by
  obtain ⟨effects, stop, hstop, hworld, hrest⟩ := hturn.rests_beside hparks hfound
  have hstays : (∀ effect ∈ effects, effect.isWarp = false) →
      next.world.playerMap? hero = some subject.trigger.map := by
    intro hnone
    have hkept := World.playerMap?_foldl_apply hnone begun.world subject
    rw [← hworld, hplayer] at hkept
    rw [world, hsettled]
    exact hkept.trans hhere
  refine ⟨hwf, by rw [hregistry]; exact h.courteous, fun id session hf => ?_⟩
  rw [hsettled] at hf
  obtain ⟨hne, hold⟩ | ⟨-, prompt, resume, rfl, rfl⟩ := hrest id session hf
  · obtain ⟨hbefore, htrigger, hnone⟩ := hothers id session hne hold
    rw [hstop] at hnone
    have hattended := h.attended id session hbefore
    exact ⟨hattended.player, hattended.queue, hattended.waits, hattended.asks,
      (hstays hnone).trans (congrArg some htrigger.symm), hmap.trans htrigger.symm⟩
  · obtain ⟨hnone, hresume⟩ := hlast.of_asking hstop
    have hrest : ∀ answer, (resume answer).NeverParks := by
      rw [Script.eq_of_advance hstop, Script.neverParks_foldr_emit] at hparks
      exact hparks
    exact ⟨hplayer, rfl, ⟨prompt, resume, rfl, fun answer => ⟨hrest answer, hresume answer⟩⟩,
      fun hsilent => (hmute hsilent).ne_asking hstop, hstays hnone, hmap⟩

/-- The hero touches something on the map where hero and console are. -/
theorem trigger (h : console.Attentive silent) {trigger : Trigger}
    (hhere : console.world.playerMap? hero = some trigger.map)
    (hmap : console.map = trigger.map) :
    (console.ask (.trigger hero trigger)).Attentive silent := by
  have hhandle := Engine.handle_trigger h.wf.played.accepting hero trigger
  obtain ⟨script, view, hscript, -, -, hview, he⟩ | ⟨id, session, hslot, hruns, -, -⟩ |
    ⟨result, -, he⟩ := console.engine.trigger_cases hero trigger
  · rw [he] at hhandle
    have hid : view.id = hero := World.id_of_player?_eq_some hview
    have hcourteous := h.courteous trigger.key script hscript
    have hfind := console.engine.table.allocate.find?_add console.engine.table.next
    refine h.of_turn (h.wf.ask _ rfl) (Engine.hasTurn_startNext h.wf.played.quiet view trigger script)
      ((hfind _ _).trans (if_pos rfl)) hid (hcourteous.neverParks _) (hcourteous.warpsLast _)
      (congrArg (Engine.settle ∘ Prod.fst) hhandle) hmap (registry_ask console _) hhere
      (hcourteous.mute (console.engine.contextOf view trigger)) ?_
    intro id session hne hf
    have hold := (hfind id _).symm.trans hf
    rw [if_neg hne] at hold
    have hattended := h.attended id session hold
    have hsame : session.trigger.map = trigger.map := by
      have hthere := hattended.here.symm.trans hhere
      exact Option.some.inj hthere
    refine ⟨hold, hsame, hcourteous.stays _ ?_⟩
    show ¬ silent trigger.map
    rw [← hsame]
    exact hattended.asks
  · -- No session of the hero runs, so nothing is queued.
    have hf := (SessionTable.inSlot?_eq_some_iff.1 hslot).2
    rw [(h.attended id session hf).isSuspended] at hruns
    cases hruns
  · rw [he] at hhandle
    rw [h.ask_of_same (congrArg Prod.fst hhandle)]
    exact h

/-- The hero answers the open dialogue, if there is one. -/
theorem respond (h : console.Attentive silent) (reply : Reply) :
    (console.ask (.respond hero reply)).Attentive silent := by
  have hhandle := Engine.handle_respond h.wf.played.accepting hero reply
  obtain ⟨id, session, prompt, next, hopen, hphase, -, he⟩ | ⟨error, he⟩ :=
    console.engine.respond_cases hero reply
  · rw [he] at hhandle
    obtain ⟨hf, hplayer, -⟩ := SessionTable.of_suspendedOf?_eq_some hopen
    have hattended := h.attended id session hf
    have hnext : ∀ answer, (next answer).NeverParks ∧ (next answer).WarpsLast := by
      obtain ⟨shown, resume, hshown, hresume⟩ := hattended.waits
      rw [hphase] at hshown
      cases hshown
      exact hresume
    have hfind := console.engine.find?_resume id session (Script.answer prompt next reply)
    refine h.of_turn (h.wf.ask _ rfl) (Engine.hasTurn_resume h.wf.played.quiet id session _) ?_
      hplayer (Script.NeverParks.answer (fun answer => (hnext answer).1) reply)
      (Script.WarpsLast.answer (fun answer => (hnext answer).2) reply)
      (congrArg (Engine.settle ∘ Prod.fst) hhandle) hattended.map (registry_ask console _)
      hattended.here (fun hsilent => absurd hsilent hattended.asks) ?_
    · rw [hfind, if_pos rfl, hf]
      have hqueue := hattended.queue
      obtain ⟨player, trigger, phase, queue⟩ := session
      cases hqueue
      rfl
    · intro other found hne ho
      rw [hfind, if_neg hne] at ho
      exact absurd (h.eq_of_find? ho hf) hne
  · rw [he] at hhandle
    rw [h.ask_of_same (congrArg Prod.fst hhandle)]
    exact h

/-- Cutting sessions off leaves hero and console in place. -/
theorem cut (h : console.Attentive silent) {command : Encounter.Command} {ids : List SessionId}
    {reason : CancelReason} (hcommand : command.player? = some hero)
    (hcuts : console.engine.Cuts command ids reason) : (console.ask command).Attentive silent := by
  have hrests : (console.ask command).engine = (console.engine.handle command).1 :=
    Engine.settle_of_quiet (hcuts.severs.quiet h.wf.played.quiet)
  refine h.keep (h.wf.ask command hcommand) (registry_ask console command) ?_ ?_
  · intro id session hf
    rw [hrests, hcuts.severs.session] at hf
    split at hf
    · cases hf
    · exact hf
  · intro id session hf
    rw [world, hrests, hcuts.severs.world]
    exact ⟨rfl, rfl⟩

/-! ## Walks -/

/-- A walk from elsewhere ends the dialogue that is open. -/
private theorem find?_moveTo_of_away (h : console.Attentive silent) {map : MapId}
    (haway : console.world.playerMap? hero ≠ some map) (id : SessionId) :
    (console.moveTo map).1.engine.table.find? id = none := by
  have hgone := (h.wf.gone map).played
  obtain ⟨ids, hcuts⟩ :=
    Engine.exists_cuts_playerMoved hgone.accepting hgone.reachable.oneDialogue hero map
  have hrests : (console.moveTo map).1.engine =
      ((console.gone map).engine.handle (.playerMoved hero map)).1 := by
    rw [h.wf.moveTo_of_away haway]
    exact Engine.settle_of_quiet (hcuts.severs.quiet hgone.quiet)
  cases hf : console.engine.table.find? id with
  | none =>
    rw [hrests, hcuts.severs.session]
    split
    · rfl
    · exact hf
  | some session =>
    have hattended := h.attended id session hf
    have hhits : (Command.playerMoved hero map).Hits session := by
      refine ⟨hattended.player, hattended.isSuspended, ?_⟩
      rintro rfl
      exact haway hattended.here
    rw [hrests, hcuts.severs.session, if_pos ((hcuts.exact id).2 ⟨session, hf, hhits⟩)]

private theorem registry_moveTo (h : console.Attentive silent) (map : MapId) :
    (console.moveTo map).1.engine.registry = console.engine.registry := by
  by_cases hhere : console.world.playerMap? hero = some map
  · rw [moveTo_of_here hhere]
  · rw [h.wf.moveTo_of_away hhere]
    exact registry_ask (console.gone map) _

/-- On the map where the hero is a dialogue stays open; elsewhere there is none. -/
theorem moveTo (h : console.Attentive silent) (map : MapId) :
    (console.moveTo map).1.Attentive silent := by
  by_cases hhere : console.world.playerMap? hero = some map
  · have hstays : (console.moveTo map).1 = { console with map := map } := moveTo_of_here hhere
    refine h.keep (h.wf.moveTo map) (h.registry_moveTo map) ?_ ?_
    · rw [hstays]
      exact fun _ _ hf => hf
    · intro id session hf
      rw [hstays]
      have hattended := h.attended id session hf
      have hsame : session.trigger.map = map :=
        Option.some.inj (hattended.here.symm.trans hhere)
      exact ⟨rfl, (hattended.map.trans hsame).symm⟩
  · have hnone := h.find?_moveTo_of_away hhere
    refine ⟨h.wf.moveTo map, ?_, ?_⟩
    · rw [h.registry_moveTo]
      exact h.courteous
    · intro id session hf
      rw [hnone] at hf
      cases hf

theorem fire (h : console.Attentive silent) (trigger : Trigger) :
    (console.fire trigger).1.Attentive silent := by
  obtain ⟨-, -, -, hmap, hhere⟩ := h.wf.leads_moveTo trigger.map
  rw [fire_fst]
  exact (h.moveTo trigger.map).trigger hhere hmap

/-- A change of the world that leaves the hero in place is no matter. -/
theorem edit (h : console.Attentive silent) (hwf : next.WF)
    (hregistry : next.engine.registry = console.engine.registry)
    (htable : next.engine.table = console.engine.table)
    (hhere : ∀ id session, console.engine.table.find? id = some session →
      next.world.playerMap? hero = console.world.playerMap? hero)
    (hmap : next.map = console.map) : next.Attentive silent := by
  refine h.keep hwf hregistry ?_ fun id session hf => ⟨hhere id session hf, hmap⟩
  intro id session hf
  rwa [htable] at hf

/-- A new party comes to the console's map, where the hero is during a dialogue. -/
theorem formParty (h : console.Attentive silent) (size : Nat) :
    (console.formParty size).1.Attentive silent := by
  refine h.edit (h.wf.formParty size) rfl rfl ?_ rfl
  intro id session hf
  have hattended := h.attended id session hf
  rw [console.playerMap?_formParty_of_mem List.mem_cons_self, hattended.here, hattended.map]

theorem leaveParty (h : console.Attentive silent) : console.leaveParty.1.Attentive silent :=
  h.edit h.wf.leaveParty rfl rfl (fun _ _ _ => h.wf.playerMap?_leaveParty) rfl

theorem execute (h : console.Attentive silent) (command : Command) :
    (console.execute command).1.Attentive silent := by
  cases command with
  | npc id map => exact h.fire (.npc id map)
  | reactor id map => exact h.fire (.reactor id map)
  | reply reply => exact h.respond reply
  | move map => exact h.moveTo map
  | party size =>
    cases size with
    | some size => exact h.formParty size
    | none => exact h.leaveParty
  | loot => exact h.edit h.wf.loot rfl rfl (fun _ _ _ => rfl) rfl
  | disconnect => exact h.cut rfl (Engine.cuts_disconnect h.wf.played.accepting hero)
  | sessions =>
    rw [Console.execute, h.wf.sessions]
    exact h
  | help => exact h
  | quit => exact h

/-- At the start there are no sessions. -/
theorem start (config : Config) {registry : Registry} (h : registry.Courteous silent) :
    (Console.start config registry).1.Attentive silent := by
  have hstart := WF.start config registry
  have hengine : (Console.start config registry).1.engine.registry = registry ∧
      (Console.start config registry).1.engine.table = .empty := by
    unfold Console.start
    cases config.partySize <;> exact ⟨rfl, rfl⟩
  refine ⟨hstart, by rw [hengine.1]; exact h, fun id session hf => ?_⟩
  rw [hengine.2] at hf
  cases hf

theorem follow (h : console.Attentive silent) (lines : List String) :
    (console.follow lines).Attentive silent :=
  follow_induction h (fun _ command hattentive => hattentive.execute command) lines

end Attentive

/-- Whatever file of bindings is loaded, its scripts are those of the cast. -/
private theorem courteous_of_loadRegistry {config : Config} {content : Option ByteArray}
    {registry : Registry} (h : loadRegistry config content = .ok registry) :
    registry.Courteous (· = Tory.forcedReturnMap) := by
  have hempty : Registry.empty.Courteous (· = Tory.forcedReturnMap) := fun _ _ hfound => nomatch hfound
  unfold loadRegistry at h
  split at h
  · cases h
    exact (hempty.insert Tory.courteous _).insert (ScrapBox.courteous _) _
  · split at h
    · cases h
    · next bindings _ =>
      cases hmade : Registry.ofBindings .builtin bindings with
      | error error =>
        rw [hmade] at h
        cases h
      | ok made =>
        rw [hmade] at h
        cases h
        exact hempty.addBindings (fun _ _ => Catalog.courteous_builtin) hmade

/-- A dialogue is only ever open where the hero stands. Whichever file binds the cast to NPCs and
reactors, however large the party is at first and whatever lines follow: the engine is quiet then,
and if a session of the hero waits on a prompt, the hero is on the map of its trigger. -/
theorem dialogue_open_at_hero (config : Config) (content : Option ByteArray) (registry : Registry)
    (hloaded : loadRegistry config content = .ok registry) (lines : List String) :
    let console := (start config registry).1.follow lines
    console.engine.isQuiet = true ∧
      ∀ id session, console.engine.table.find? id = some session → session.player = hero →
        session.isSuspended = true →
          console.world.playerMap? hero = some session.trigger.map := by
  intro console
  have hattentive : console.Attentive (· = Tory.forcedReturnMap) :=
    (Attentive.start config (courteous_of_loadRegistry hloaded)).follow lines
  refine ⟨?_, fun id session hf _ _ => (hattentive.attended id session hf).here⟩
  rw [Engine.isQuiet, hattentive.wf.played.quiet]
  rfl

/-- A file that binds a reactor to Tory's script. -/
def toryReactorText : String := "(bindings: [(kind: Reactor, id: 7, script: \"moonrabbit\")])"

/-- The registry of that file. -/
def toryReactor : Registry := Registry.empty.insert ⟨.reactor, 7⟩ Tory.script

/-- A party of three is formed at the start, and the file is in the data directory. -/
def toryReactorConfig : Config :=
  { Config.ofLookup fun _ => none with partySize := some 3, dataDir := some "data" }

private theorem loadRegistry_toryReactor :
    loadRegistry toryReactorConfig (some toryReactorText.toUTF8) = .ok toryReactor := by
  have hload : Binding.load "data" (some toryReactorText.toUTF8) =
      .ok [⟨⟨.reactor, 7⟩, "moonrabbit"⟩] := by
    decide +kernel
  have hdir : toryReactorConfig.dataDir = some "data" := rfl
  rw [loadRegistry, hdir]
  dsimp only
  rw [hload]
  rfl

/-- The hero has walked to the reactor and hit it, and Tory's script asks where the hero is. -/
theorem dialogue_open_at_hero_reactor :
    ∃ session, ((start toryReactorConfig toryReactor).1.follow
        ["reactor 7 910010100"]).engine.table.find? ⟨1⟩ = some session ∧
      session.isSuspended = true ∧
      ((start toryReactorConfig toryReactor).1.follow ["reactor 7 910010100"]).world.playerMap?
        hero = some session.trigger.map := by
  have hlisted : (⟨⟨1⟩, hero, .reactor ⟨7⟩ Tory.offeredReturnMap,
      some ⟨.askYesNo, Tory.offerReturnText⟩⟩ : SessionInfo) ∈
        ((start toryReactorConfig toryReactor).1.follow
          ["reactor 7 910010100"]).engine.table.infos := by
    decide +kernel
  obtain ⟨session, hf, hplayer, -, hprompt⟩ := SessionTable.find?_of_mem_infos hlisted
  have hwaits : session.isSuspended = true := by
    rw [Session.isSuspended, hprompt]
    rfl
  exact ⟨session, hf, hwaits, (dialogue_open_at_hero toryReactorConfig _ toryReactor
    loadRegistry_toryReactor ["reactor 7 910010100"]).2 ⟨1⟩ session hf hplayer hwaits⟩

end Console
end Encounter
