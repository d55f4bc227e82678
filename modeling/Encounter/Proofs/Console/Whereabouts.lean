import Encounter.Proofs.World.Ground
import Encounter.Proofs.Console.Crew

/-!
# Where the hero is

A script warps the hero without telling the console, which keeps a map of its own, and without the
members. The console looks at the world again only when a walk begins, and the members are fetched
only when it begins elsewhere. The warps since then tell how far console, hero and members are
apart, and so what a walk, a party and the loot are worth.
-/

namespace Encounter
namespace Console

/-- The events published from one state of the console to a later one. -/
def eventsUpTo (console later : Console) : List Event :=
  later.engine.log.drop console.engine.log.length

/-- A map where the hero was, and the events published since. -/
structure Trail where
  camp : MapId
  events : List Event

namespace Trail

/-- Where the last warp on the trail led, or else where the trail begins. -/
def place (trail : Trail) : MapId := (lastWarp trail.events).getD trail.camp

/-- The trail after a command that led from one state of the console to the next. A fresh trail
begins on the console's map, with the events of the command itself. -/
def extend (trail : Trail) (console next : Console) (fresh : Bool) : Trail :=
  if fresh then ⟨next.map, console.eventsUpTo next⟩
  else ⟨trail.camp, trail.events ++ console.eventsUpTo next⟩

end Trail

/-- Does the line hold a command with which a fresh trail begins? -/
def isFresh (begins : Console → Command → Bool) (console : Console) (line : String) : Bool :=
  match Command.parse line with
  | .ok command => begins console command
  | .error _ => false

/-- The trail after some lines, if `begins` tells with which commands a fresh one begins. -/
def trace (begins : Console → Command → Bool) (console : Console) (trail : Trail) :
    List String → Trail
  | [] => trail
  | line :: rest =>
    match console.enter line with
    | none => trail
    | some (next, _) =>
      next.trace begins (trail.extend console next (console.isFresh begins line)) rest

/-- Does the command begin by bringing the hero and the console's map together? -/
def Command.locates : Command → Bool
  | npc .. | reactor .. | move _ | party (some _) => true
  | reply _ | party none | loot | disconnect | sessions | help | quit => false

/-- Does the command begin by bringing the hero and the members together? A walk does so only from
elsewhere. -/
def gathers (console : Console) : Command → Bool
  | .npc _ map | .reactor _ map | .move map => console.world.playerMap? hero != some map
  | .party (some _) => true
  | .reply _ | .party none | .loot | .disconnect | .sessions | .help | .quit => false

/-- What the console missed after some lines: the trail since it last located the hero. -/
def missed (console : Console) (lines : List String) : Trail :=
  console.trace (fun _ => Command.locates) ⟨console.map, []⟩ lines

/-- How the hero strayed from the members after some lines: the trail since they last gathered. -/
def strayed (console : Console) (lines : List String) : Trail :=
  console.trace gathers ⟨console.map, []⟩ lines

/-- What a command keeps, of the console and a trail together, holds after all lines. -/
private theorem trace_induction {begins : Console → Command → Bool} {P : Console → Trail → Prop}
    {console : Console} {trail : Trail} (h : P console trail)
    (hexecute : ∀ console trail command, P console trail →
      P (execute console command).1
        (trail.extend console (execute console command).1 (begins console command)))
    (lines : List String) : P (console.follow lines) (console.trace begins trail lines) := by
  -- Each line changes the trail, so the claim is made for any trail.
  induction lines generalizing console trail with
  | nil => exact h
  | cons line rest ih =>
    rw [follow, trace]
    cases henter : console.enter line with
    | none => exact h
    | some entered =>
      obtain ⟨next, printed⟩ := entered
      refine ih ?_
      obtain ⟨hnone, rfl⟩ | ⟨command, hparse, rfl⟩ := enter_cases henter
      · have hfresh : next.isFresh begins line = false := by
          unfold isFresh
          split
          · next command hparse => exact absurd hparse (hnone command)
          · rfl
        have hsame : trail.extend next next (next.isFresh begins line) = trail := by
          simp [Trail.extend, hfresh, eventsUpTo]
        rw [hsame]
        exact h
      · have hfresh : console.isFresh begins line = begins console command := by
          rw [isFresh, hparse]
        rw [hfresh]
        exact hexecute console trail command h

/-- The warps up to a later state of the console lead from the map to where the hero is then. -/
def Leads (console later : Console) (map : MapId) : Prop :=
  later.world.playerMap? hero = some ((lastWarp (console.eventsUpTo later)).getD map)

section Leads

variable {console next later : Console}

private theorem eventsUpTo_of_log {events : List Event}
    (h : later.engine.log = console.engine.log ++ events) : console.eventsUpTo later = events := by
  rw [eventsUpTo, h, List.drop_left]

/-- Without new events the hero is on the map. -/
private theorem leads_of_log {map : MapId} (hlog : later.engine.log = console.engine.log)
    (hhero : later.world.playerMap? hero = some map) : console.Leads later map := by
  rw [Leads, eventsUpTo, hlog, List.drop_length]
  exact hhero

/-- Events without a warp that come first do not matter. -/
private theorem Leads.after_events {events others : List Event} {map : MapId}
    (h : next.Leads later map)
    (hfirst : next.engine.log = console.engine.log ++ events) (hwarp : lastWarp events = none)
    (hlater : later.engine.log = next.engine.log ++ others) : console.Leads later map := by
  have hevents : console.eventsUpTo later = events ++ others :=
    eventsUpTo_of_log (by rw [hlater, hfirst, List.append_assoc])
  rw [Leads, eventsUpTo_of_log hlater] at h
  rw [Leads, hevents, lastWarp_append, hwarp, Option.or_none]
  exact h

/-- The new warps extend the trail, or are a fresh one that begins on the console's map. -/
private theorem Leads.place_extend {trail : Trail} {fresh : Bool}
    (h : console.Leads later (if fresh then later.map else trail.place)) :
    later.world.playerMap? hero = some (trail.extend console later fresh).place := by
  cases fresh with
  | true => exact h
  | false =>
    simp only [Trail.extend, Trail.place, Bool.false_eq_true, if_false, lastWarp_append,
      Option.getD_or]
    exact h

end Leads

namespace WF

variable {console : Console}

/-- A request for the hero leads to events of the hero's sessions, and the last warp among them
takes the hero along. -/
private theorem leads_ask (h : console.WF) (command : Encounter.Command)
    (hcommand : command.player? = some hero) {here : MapId}
    (hhere : console.world.playerMap? hero = some here) :
    ∃ events, (console.ask command).engine.log = console.engine.log ++ events ∧
      (∀ id ≠ hero, (console.ask command).world.playerMap? id = console.world.playerMap? id) ∧
      console.Leads (console.ask command) here := by
  obtain ⟨events, hlog, -, -, hothers, hhero⟩ := h.played.moves hcommand
  have hlog' : (console.ask command).engine.log = console.engine.log ++ events := hlog
  refine ⟨events, hlog', hothers, ?_⟩
  rw [Leads, eventsUpTo_of_log hlog']
  exact hhero.trans (by rw [hhere, Option.map_some])

/-- A walk publishes no warp and leaves the hero on the map to which it leads. -/
theorem leads_moveTo (h : console.WF) (map : MapId) :
    ∃ events, (console.moveTo map).1.engine.log = console.engine.log ++ events ∧
      lastWarp events = none ∧ (console.moveTo map).1.map = map ∧
      (console.moveTo map).1.world.playerMap? hero = some map := by
  by_cases hhere : console.world.playerMap? hero = some map
  · rw [moveTo_of_here hhere]
    exact ⟨[], (List.append_nil _).symm, rfl, rfl, hhere⟩
  · obtain ⟨events, hlog, hwarp, hworld⟩ := (h.gone map).played.playerMoved hero map
    rw [h.moveTo_of_away hhere]
    refine ⟨events, hlog, hwarp, rfl, ?_⟩
    have hgone : (console.gone map).world.playerMap? hero = some map :=
      (playerMap?_spawnPlayers { console with map := map } hero).trans (if_pos List.mem_cons_self)
    exact (congrArg (World.playerMap? · hero) hworld).trans hgone

/-- Of the events of a walk and what it leads to, only the latter can be warps. -/
private theorem leads_fire (h : console.WF) (trigger : Trigger) :
    (console.fire trigger).1.map = trigger.map ∧
      console.Leads (console.fire trigger).1 trigger.map := by
  obtain ⟨walk, hwalk, hwarp, hmap, hhero⟩ := h.leads_moveTo trigger.map
  obtain ⟨events, hevents, -, hleads⟩ :=
    (h.moveTo trigger.map).leads_ask (.trigger hero trigger) rfl hhero
  rw [fire_fst, map_ask]
  exact ⟨hmap, hleads.after_events hwalk hwarp hevents⟩

/-- Whoever leaves the party stays where they are. -/
theorem playerMap?_leaveParty (h : console.WF) :
    console.leaveParty.1.world.playerMap? hero = console.world.playerMap? hero := by
  refine (World.playerMap?_leaveParty console.removeMembers.world hero hero).trans ?_
  rw [playerMap?_removeMembers, if_neg h.hero_notMem]

/-- The warps of a command lead from where the hero was, or from the console's map if the command
locates the hero. -/
private theorem leads_execute (h : console.WF) (command : Command) {here : MapId}
    (hhere : console.world.playerMap? hero = some here) :
    console.Leads (console.execute command).1
      (if command.locates then (console.execute command).1.map else here) := by
  cases command with
  | npc id map =>
    obtain ⟨hmap, hleads⟩ := h.leads_fire (.npc id map)
    rw [← hmap] at hleads
    exact hleads
  | reactor id map =>
    obtain ⟨hmap, hleads⟩ := h.leads_fire (.reactor id map)
    rw [← hmap] at hleads
    exact hleads
  | reply reply =>
    obtain ⟨-, -, -, hleads⟩ := h.leads_ask (.respond hero reply) rfl hhere
    exact hleads
  | move map =>
    obtain ⟨walk, hwalk, hwarp, hmap, hhero⟩ := h.leads_moveTo map
    show console.Leads (console.moveTo map).1 (console.moveTo map).1.map
    rw [Leads, eventsUpTo_of_log hwalk, hwarp, hmap]
    exact hhero
  | party size =>
    cases size with
    | some size =>
      exact leads_of_log rfl (console.playerMap?_formParty_of_mem List.mem_cons_self)
    | none => exact leads_of_log rfl (h.playerMap?_leaveParty.trans hhere)
  | loot => exact leads_of_log rfl hhere
  | disconnect =>
    obtain ⟨-, -, -, hleads⟩ := h.leads_ask (.disconnect hero) rfl hhere
    exact hleads
  | sessions =>
    rw [Console.execute, h.sessions]
    exact leads_of_log rfl hhere
  | help => exact leads_of_log rfl hhere
  | quit => exact leads_of_log rfl hhere

end WF

/-- A command that does not locate the hero leaves the console's map as it is. -/
private theorem map_execute {console : Console} {command : Command} (h : command.locates = false) :
    (console.execute command).1.map = console.map := by
  cases command with
  | npc id map => cases h
  | reactor id map => cases h
  | move map => cases h
  | party size =>
    cases size with
    | some size => cases h
    | none => rfl
  | reply _ | loot | disconnect | sessions | help | quit => rfl

/-- At the start the hero is where the console believes. -/
private theorem playerMap?_start (config : Config) (registry : Registry) :
    (start config registry).1.world.playerMap? hero = some (start config registry).1.map := by
  unfold start
  cases config.partySize with
  | none => exact (playerMap?_spawnPlayers _ hero).trans (if_pos List.mem_cons_self)
  | some size => exact playerMap?_formParty_of_mem _ List.mem_cons_self

/-- What the console missed begins on its map and leads to where the hero is. -/
private theorem hero_of_missed (config : Config) (registry : Registry) (lines : List String) :
    let console := (start config registry).1.follow lines
    let missed := (start config registry).1.missed lines
    console.WF ∧ missed.camp = console.map ∧
      console.world.playerMap? hero = some missed.place := by
  refine trace_induction (P := fun console trail => console.WF ∧ trail.camp = console.map ∧
    console.world.playerMap? hero = some trail.place) ?_ ?_ lines
  · exact ⟨.start config registry, rfl, playerMap?_start config registry⟩
  · rintro console trail command ⟨h, hcamp, hhere⟩
    refine ⟨h.execute command, ?_, (h.leads_execute command hhere).place_extend⟩
    unfold Trail.extend
    split
    · rfl
    · next hlocates => exact hcamp.trans (map_execute (Bool.not_eq_true _ ▸ hlocates)).symm

/-! ## The members -/

/-- The members of the hero's party stand on the map. -/
def Camps (console : Console) (camp : MapId) : Prop :=
  ∀ id ∈ memberIds console.partySize, console.world.playerMap? id = some camp

namespace WF

variable {console : Console}

/-- A request for the hero leaves the members where they are. -/
private theorem camps_ask (h : console.WF) {camp : MapId} (hcamp : console.Camps camp)
    (command : Encounter.Command) (hcommand : command.player? = some hero) :
    (console.ask command).Camps camp := by
  obtain ⟨here, hhere⟩ := Option.isSome_iff_exists.1 h.hosts.isSome_hero
  obtain ⟨-, -, hothers, -⟩ := h.leads_ask command hcommand hhere
  intro id hid
  have hne : id ≠ hero := by
    rintro rfl
    exact h.hero_notMem hid
  exact (hothers id hne).trans (hcamp id hid)

/-- A walk from elsewhere brings everyone along. -/
private theorem crew_moveTo (h : console.WF) {map : MapId}
    (haway : console.world.playerMap? hero ≠ some map) {id : PlayerId}
    (hid : id ∈ crew console.partySize) :
    (console.moveTo map).1.world.playerMap? id = some map := by
  obtain ⟨-, -, -, hworld⟩ := (h.gone map).played.playerMoved hero map
  rw [h.moveTo_of_away haway]
  refine (congrArg (World.playerMap? · id) hworld).trans ?_
  exact (playerMap?_spawnPlayers { console with map := map } id).trans (if_pos hid)

private theorem partySize_moveTo (h : console.WF) (map : MapId) :
    (console.moveTo map).1.partySize = console.partySize := by
  by_cases hhere : console.world.playerMap? hero = some map
  · rw [moveTo_of_here hhere]
  · rw [h.moveTo_of_away hhere]
    rfl

/-- The members go along on a walk unless the hero was on its map. -/
private theorem camps_moveTo (h : console.WF) {camp : MapId} (hcamp : console.Camps camp)
    (map : MapId) :
    (console.moveTo map).1.Camps
      (if console.world.playerMap? hero != some map then (console.moveTo map).1.map else camp) := by
  by_cases hhere : console.world.playerMap? hero = some map
  · simp only [moveTo_of_here hhere, hhere, bne_self_eq_false, Bool.false_eq_true, if_false]
    exact hcamp
  · obtain ⟨-, -, -, hmap, -⟩ := h.leads_moveTo map
    rw [if_pos (bne_iff_ne.2 hhere), hmap]
    intro id hid
    rw [h.partySize_moveTo] at hid
    exact h.crew_moveTo hhere (List.mem_cons_of_mem _ hid)

private theorem camps_fire (h : console.WF) {camp : MapId} (hcamp : console.Camps camp)
    (trigger : Trigger) : (console.fire trigger).1.Camps
      (if console.world.playerMap? hero != some trigger.map then (console.fire trigger).1.map
      else camp) := by
  rw [fire_fst]
  exact (h.moveTo trigger.map).camps_ask (h.camps_moveTo hcamp trigger.map)
    (.trigger hero trigger) rfl

/-- A walk that gathers nobody ends where the hero was, so the hero's way may begin there as
well. -/
private theorem base_of_gathers (h : console.WF) {here : MapId}
    (hhere : console.world.playerMap? hero = some here) {command : Command} :
    (if console.gathers command then (console.execute command).1.map else here) =
      if command.locates then (console.execute command).1.map else here := by
  have hwalk : ∀ {next : Console} {map : MapId}, next.map = map →
      (if (console.world.playerMap? hero != some map) = true then next.map else here) =
        next.map := by
    intro next map hmap
    by_cases heq : here = map
    · simp [hhere, heq, hmap]
    · simp [hhere, heq]
  cases command with
  | npc id map => exact hwalk (h.leads_fire (.npc id map)).1
  | reactor id map => exact hwalk (h.leads_fire (.reactor id map)).1
  | move map =>
    obtain ⟨-, -, -, hmap, -⟩ := h.leads_moveTo map
    exact hwalk hmap
  | party size => cases size <;> rfl
  | reply _ | loot | disconnect | sessions | help | quit => rfl

/-- The members are where they were, or on the console's map if the command gathers them. -/
private theorem camps_execute (h : console.WF) {camp : MapId} (hcamp : console.Camps camp)
    (command : Command) : (console.execute command).1.Camps
      (if console.gathers command then (console.execute command).1.map else camp) := by
  cases command with
  | npc id map => exact h.camps_fire hcamp (.npc id map)
  | reactor id map => exact h.camps_fire hcamp (.reactor id map)
  | reply reply => exact h.camps_ask hcamp (.respond hero reply) rfl
  | move map => exact h.camps_moveTo hcamp map
  | party size =>
    cases size with
    | some size =>
      exact fun _ hid => console.playerMap?_formParty_of_mem (List.mem_cons_of_mem _ hid)
    | none => exact fun _ hid => absurd hid List.not_mem_nil
  | loot => exact hcamp
  | disconnect => exact h.camps_ask hcamp (.disconnect hero) rfl
  | sessions =>
    rw [Console.execute, h.sessions]
    exact hcamp
  | help => exact hcamp
  | quit => exact hcamp

end WF

private theorem camps_start (config : Config) (registry : Registry) :
    (start config registry).1.Camps (start config registry).1.map := by
  unfold start
  cases config.partySize with
  | none => exact fun _ hid => absurd hid List.not_mem_nil
  | some size => exact fun _ hid => playerMap?_formParty_of_mem _ (List.mem_cons_of_mem _ hid)

/-- Where the hero strayed from is where the members are. -/
private theorem hero_of_strayed (config : Config) (registry : Registry) (lines : List String) :
    let console := (start config registry).1.follow lines
    let strayed := (start config registry).1.strayed lines
    console.WF ∧ console.Camps strayed.camp ∧
      console.world.playerMap? hero = some strayed.place := by
  refine trace_induction (P := fun console trail => console.WF ∧ console.Camps trail.camp ∧
    console.world.playerMap? hero = some trail.place) ?_ ?_ lines
  · exact ⟨.start config registry, camps_start config registry, playerMap?_start config registry⟩
  · rintro console trail command ⟨h, hcamp, hhere⟩
    refine ⟨h.execute command, ?_, Leads.place_extend ?_⟩
    · have hcamps := h.camps_execute hcamp command
      unfold Trail.extend
      split
      · next hgathers => rwa [if_pos hgathers] at hcamps
      · next hgathers => rwa [if_neg hgathers] at hcamps
    · rw [h.base_of_gathers hhere]
      exact h.leads_execute command hhere

/-! ## The party on a walk -/

/-- Everyone in the hero's party stands on the map. -/
def PartyOn (console : Console) (map : MapId) : Prop :=
  ∀ party, console.world.partyOf? hero = some party → ∀ member ∈ party.members, member.map = map

namespace WF

variable {console : Console}

/-- With a party, hero and members are all there; without one nobody has to be. -/
private theorem partyOn_iff (h : console.WF) {map : MapId} : console.PartyOn map ↔
    (console.partySize ≠ 0 → ∀ id ∈ crew console.partySize,
      console.world.playerMap? id = some map) := by
  have hcrew :
      (∀ member ∈ (crew console.partySize).filterMap console.world.member?, member.map = map) ↔
        ∀ id ∈ crew console.partySize, console.world.playerMap? id = some map :=
    console.world.forall_mem_filterMap_member?_iff fun id hid => (h.hosts.players id).2 hid
  constructor
  · intro hon hsize
    exact hcrew.1 (hon _ (h.hosts.partyOf?_eq_some hsize))
  · intro hon party hparty
    by_cases hsize : console.partySize = 0
    · rw [h.hosts.partyOf?_eq_none hsize] at hparty
      cases hparty
    · rw [h.hosts.partyOf?_eq_some hsize] at hparty
      cases hparty
      exact hcrew.2 (hon hsize)

/-- With the hero on the map, the party is there if the members are, or if there are none. -/
private theorem partyOn_iff_of_camps (h : console.WF) {map camp : MapId}
    (hcamp : console.Camps camp) (hhere : console.world.playerMap? hero = some map) :
    console.PartyOn map ↔ camp = map ∨ console.partySize ≤ 1 := by
  rw [h.partyOn_iff]
  constructor
  · intro hon
    by_cases hfew : console.partySize ≤ 1
    · exact .inr hfew
    · have hsecond : (⟨2⟩ : PlayerId) ∈ memberIds console.partySize :=
        List.mem_map.2 ⟨0, List.mem_range.2 (by omega), rfl⟩
      have hthere := hon (by omega) ⟨2⟩ (List.mem_cons_of_mem _ hsecond)
      rw [hcamp _ hsecond] at hthere
      exact .inl (Option.some.inj hthere)
  · intro hor _ id hid
    obtain rfl | hmember := List.mem_cons.1 hid
    · exact hhere
    · obtain rfl | hfew := hor
      · exact hcamp id hmember
      · rw [memberIds, Nat.sub_eq_zero_of_le hfew] at hmember
        cases hmember

end WF

/-- A walk, of its own or to what is touched, leaves the hero on its map. Everyone in the party is
there too, unless the hero was on that map before and had strayed there from where the members are:
then they are left behind. -/
theorem walk_gathers_iff (config : Config) (registry : Registry) (lines : List String)
    (map : MapId) :
    let console := (start config registry).1.follow lines
    let walked := (console.moveTo map).1
    let strayed := (start config registry).1.strayed lines
    walked.world.playerMap? hero = some map ∧
      console.world.playerMap? hero = some strayed.place ∧ console.Camps strayed.camp ∧
      (walked.PartyOn map ↔
        (strayed.place = map → strayed.camp = map ∨ console.partySize ≤ 1)) := by
  intro console walked strayed
  obtain ⟨h, hcamp, hhere⟩ := hero_of_strayed config registry lines
  obtain ⟨-, -, -, -, harrived⟩ := h.leads_moveTo map
  refine ⟨harrived, hhere, hcamp, ?_⟩
  by_cases hplace : strayed.place = map
  · have hon : console.world.playerMap? hero = some map := hhere.trans (congrArg some hplace)
    have hsame : walked.PartyOn map ↔ console.PartyOn map := by
      show (console.moveTo map).1.PartyOn map ↔ console.PartyOn map
      rw [moveTo_of_here hon]
      rfl
    rw [hsame, forall_prop_of_true hplace]
    exact h.partyOn_iff_of_camps hcamp hon
  · have haway : console.world.playerMap? hero ≠ some map := by
      rw [hhere, ne_eq, Option.some_inj]
      exact hplace
    refine iff_of_true ((h.moveTo map).partyOn_iff.2 fun _ id hid => ?_) fun hthere =>
      absurd hthere hplace
    rw [h.partySize_moveTo] at hid
    exact h.crew_moveTo haway hid

/-- If Tory sends the hero back to the park, the party stays where it was, and a walk to her there
does not fetch it. -/
theorem not_every_walk_gathers : ¬ ∀ config registry lines map,
    let walked := (((start config registry).1.follow lines).moveTo map).1
    walked.world.playerMap? hero = some map ∧ walked.PartyOn map := by
  intro hall
  have hon := (hall (.ofLookup fun _ => none) .builtin ["party 3", "npc 1012112 910010400"]
    Tory.henesysPark).2
  have hparty : (((start (.ofLookup fun _ => none) .builtin).1.follow
      ["party 3", "npc 1012112 910010400"]).moveTo Tory.henesysPark).1.world.partyOf? hero =
      some ⟨hero, [⟨⟨1⟩, Tory.henesysPark, 30⟩, ⟨⟨2⟩, Tory.forcedReturnMap, 30⟩,
        ⟨⟨3⟩, Tory.forcedReturnMap, 30⟩]⟩ := by
    decide +kernel
  exact absurd (hon _ hparty ⟨⟨2⟩, Tory.forcedReturnMap, 30⟩ (by decide)) (by decide)

/-- Leaving a party does not move the hero. Forming one puts the hero on the console's map, where
the warps that the console missed began: the hero stays in place exactly if the last one led there
again or there was none. -/
theorem party_keeps_place_iff (config : Config) (registry : Registry) (lines : List String) :
    let console := (start config registry).1.follow lines
    let missed := (start config registry).1.missed lines
    missed.camp = console.map ∧ console.world.playerMap? hero = some missed.place ∧
      (console.execute (.party none)).1.world.playerMap? hero = some missed.place ∧
      ∀ size, (console.execute (.party (some size))).1.world.playerMap? hero = some missed.camp ∧
        ((console.execute (.party (some size))).1.world.playerMap? hero =
          console.world.playerMap? hero ↔ missed.place = missed.camp) := by
  intro console missed
  obtain ⟨h, hcamp, hhere⟩ := hero_of_missed config registry lines
  refine ⟨hcamp, hhere, h.playerMap?_leaveParty.trans hhere, fun size => ?_⟩
  have hformed :
      (console.execute (.party (some size))).1.world.playerMap? hero = some missed.camp :=
    (console.playerMap?_formParty_of_mem List.mem_cons_self).trans (congrArg some hcamp.symm)
  refine ⟨hformed, ?_⟩
  rw [hformed, hhere, Option.some_inj]
  exact eq_comm

/-- If Tory has sent the hero to the park, a party that is formed then pulls the hero back. -/
theorem not_every_party_keeps_place : ¬ ∀ config registry lines size,
    let console := (start config registry).1.follow lines
    (console.execute (.party size)).1.world.playerMap? hero = console.world.playerMap? hero := by
  intro hall
  have hkept := hall (.ofLookup fun _ => none) .builtin ["npc 1012112 910010400"] (some 3)
  revert hkept
  decide +kernel

/-- What `loot` does if it acts on the map: everything that lies there is picked up and named,
oldest first, and all other maps stay as they are. -/
structure LootsOn (console : Console) (map : MapId) : Prop where
  printed : (console.execute .loot).2 =
    if console.world.groundDrops map = [] then ["nothing to pick up"]
    else (console.world.groundDrops map).map fun placement => "picked up " ++ describeDrop placement
  emptied : (console.execute .loot).1.world.groundDrops map = []
  others : ∀ other ≠ map,
    (console.execute .loot).1.world.groundDrops other = console.world.groundDrops other

private theorem groundDrops_loot (console : Console) (map : MapId) :
    (console.execute .loot).1.world.groundDrops map =
      if console.map = map then [] else console.world.groundDrops map :=
  World.groundDrops_clearGround console.world console.map map

/-- It acts on the console's map. -/
private theorem lootsOn_map (console : Console) : console.LootsOn console.map where
  printed := by
    simp only [← List.isEmpty_iff]
    rfl
  emptied := by rw [groundDrops_loot, if_pos rfl]
  others other hother := by rw [groundDrops_loot, if_neg (Ne.symm hother)]

/-- On another map than the console's it has nothing to act on, or it does not act there. -/
private theorem lootsOn_iff {console : Console} {map : MapId} :
    console.LootsOn map ↔ map = console.map ∨
      console.world.groundDrops map = [] ∧ console.world.groundDrops console.map = [] := by
  constructor
  · intro hloots
    by_cases hmap : map = console.map
    · exact .inl hmap
    · refine .inr ⟨?_, ?_⟩
      · have hempty := hloots.emptied
        rwa [groundDrops_loot, if_neg (Ne.symm hmap)] at hempty
      · rw [← hloots.others console.map (Ne.symm hmap), groundDrops_loot, if_pos rfl]
  · rintro (hmap | ⟨hmap, hnone⟩)
    · rw [hmap]
      exact console.lootsOn_map
    · have hprinted := console.lootsOn_map.printed
      rw [if_pos hnone] at hprinted
      constructor
      · rw [hprinted, if_pos hmap]
      · rw [groundDrops_loot, hmap, ite_self]
      · intro other _
        rw [groundDrops_loot]
        split
        · next hother => rw [← hother, hnone]
        · rfl

/-- `loot` acts on the console's map, where the warps that the console missed began. That is the map
where the hero stands exactly if the last one led there again or there was none; on another one it
does what is expected only if nothing lies on either map. -/
theorem loots_here_iff (config : Config) (registry : Registry) (lines : List String) :
    let console := (start config registry).1.follow lines
    let missed := (start config registry).1.missed lines
    console.world.playerMap? hero = some missed.place ∧ console.LootsOn missed.camp ∧
      (console.LootsOn missed.place ↔ missed.place = missed.camp ∨
        console.world.groundDrops missed.place = [] ∧
          console.world.groundDrops missed.camp = []) := by
  intro console missed
  obtain ⟨-, hcamp, hhere⟩ := hero_of_missed config registry lines
  have hmap : missed.camp = console.map := hcamp
  rw [hmap]
  exact ⟨hhere, console.lootsOn_map, lootsOn_iff⟩

/-- What a box dropped in the park is out of reach for a hero whom Tory has sent back there. -/
theorem not_every_loot_here : ¬ ∀ config registry lines map,
    let console := (start config registry).1.follow lines
    console.world.playerMap? hero = some map → console.LootsOn map := by
  intro hall
  have hloots := hall (.ofLookup fun _ => none) .builtin
    ["reactor 2000 100000200", "npc 1012112 910010400"] Tory.henesysPark (by decide +kernel)
  exact absurd hloots.emptied (by decide +kernel)

end Console
end Encounter
