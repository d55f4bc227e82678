import Encounter.Console.Basic
import Encounter.Proofs.World.Warp

/-!
# The engine behind the console

The console changes the world and sends commands for the hero, and never shuts the engine down. So
behind it there is always a quiet engine that accepts commands, in a state that a run of operations
leads to. A command for the hero moves nobody but the hero, and him only by warps; a walk that is
reported moves nobody.
-/

namespace Encounter
namespace Engine

/-- The engine has been played from an empty world, and was not shut down. -/
def Played (engine : Engine) : Prop :=
  ∃ registry operations, .command .shutdown ∉ operations ∧
    (new registry .empty).play operations = engine

namespace Played

variable {engine : Engine} {player : PlayerId} {command : Command}

theorem new (registry : Registry) : (new registry .empty).Played :=
  ⟨registry, [], List.not_mem_nil, rfl⟩

/-- Another operation is played. -/
theorem operate (h : engine.Played) {operation : Operation}
    (hoperation : operation ≠ .command .shutdown) : (engine.operate operation).Played := by
  obtain ⟨registry, operations, hopen, rfl⟩ := h
  refine ⟨registry, operations ++ [operation], ?_, play_append _ _ _⟩
  rw [List.mem_append, List.mem_singleton, not_or]
  exact ⟨hopen, Ne.symm hoperation⟩

theorem edit (h : engine.Played) (change : World → World) : (engine.editWorld change).Played :=
  @operate engine h (.edit change) nofun

theorem perform (h : engine.Played) (hcommand : command.player? = some player) :
    (engine.perform command).1.Played := by
  refine @operate engine h (.command command) ?_
  rintro ⟨⟩
  cases hcommand

theorem quiet (h : engine.Played) : engine.step? = none := by
  obtain ⟨registry, operations, -, rfl⟩ := h
  exact quiet_play rfl operations

theorem accepting (h : engine.Played) : engine.accepting = true := by
  obtain ⟨registry, operations, hopen, rfl⟩ := h
  exact (alike_play _ hopen).accepting

theorem reachable (h : engine.Played) : engine.Reachable := by
  obtain ⟨registry, operations, -, rfl⟩ := h
  exact reachable_play registry .empty operations

/-- What a command for a player leads to. -/
theorem moves (h : engine.Played) (hcommand : command.player? = some player) :
    ∃ events, (engine.perform command).1.log = engine.log ++ events ∧
      (∀ event ∈ events, event.player = player) ∧
      (engine.perform command).1.world.parties = engine.world.parties ∧
      (∀ id ≠ player,
        (engine.perform command).1.world.playerMap? id = engine.world.playerMap? id) ∧
      (engine.perform command).1.world.playerMap? player =
        (engine.world.playerMap? player).map ((lastWarp events).getD ·) :=
  (spares_perform h.reachable.wf h.quiet hcommand).reports.moves

/-- A reported walk cuts off a dialogue at most: nobody is moved, and no warp is published. -/
theorem playerMoved (h : engine.Played) (player : PlayerId) (map : MapId) :
    ∃ events, (engine.perform (.playerMoved player map)).1.log = engine.log ++ events ∧
      lastWarp events = none ∧
      (engine.perform (.playerMoved player map)).1.world = engine.world := by
  obtain ⟨ids, hcuts⟩ :=
    exists_cuts_playerMoved h.accepting h.reachable.oneDialogue player map
  have hsevers := hcuts.severs
  have hrests : (engine.perform (.playerMoved player map)).1 =
      (engine.handle (.playerMoved player map)).1 := settle_of_quiet (hsevers.quiet h.quiet)
  rw [hrests]
  refine ⟨_, hsevers.log, lastWarp_eq_none fun event hm => ?_, hsevers.world⟩
  obtain ⟨id, -, hcut⟩ := List.mem_filterMap.1 hm
  obtain ⟨session, -, rfl⟩ := Option.map_eq_some_iff.1 hcut
  rfl

/-- Listing the sessions changes nothing. -/
theorem sessions (h : engine.Played) : (engine.perform .sessions).1 = engine := by
  have hhandle : (engine.handle .sessions).1 = engine := by
    unfold handle
    rw [h.accepting]
    rfl
  show (engine.handle .sessions).1.settle = engine
  rw [hhandle, settle_of_quiet h.quiet]

end Played
end Engine

namespace Console

/-- The world behind the console. -/
abbrev world (console : Console) : World := console.engine.world

/-- The console once the engine has dealt with a command. -/
def ask (console : Console) (command : Encounter.Command) : Console :=
  { console with engine := (console.engine.perform command).1 }

@[simp] theorem map_ask (console : Console) (command : Encounter.Command) :
    (console.ask command).map = console.map := rfl

section Requests

variable (console : Console)

theorem reply_fst (reply : Reply) :
    (console.reply reply).1 = console.ask (.respond hero reply) := rfl

theorem disconnect_fst : console.disconnect.1 = console.ask (.disconnect hero) := rfl

theorem sessions_fst : console.sessions.1 = console.ask .sessions := rfl

theorem fire_fst (trigger : Trigger) : (console.fire trigger).1 =
    (console.moveTo trigger.map).1.ask (.trigger hero trigger) := rfl

end Requests

/-- The console after some lines, up to one that ends the program. -/
def follow (console : Console) : List String → Console
  | [] => console
  | line :: rest =>
    match console.enter line with
    | none => console
    | some (next, _) => next.follow rest

/-- If every line is read, what comes next is printed by the console after them. -/
theorem outputs_append {console : Console} {lines : List String}
    (hread : (console.outputs lines).length = lines.length) (rest : List String) :
    console.outputs (lines ++ rest) =
      console.outputs lines ++ (console.follow lines).outputs rest := by
  induction lines generalizing console with
  | nil => rfl
  | cons line lines ih =>
    cases henter : console.enter line with
    | none => simp [outputs, henter] at hread
    | some entered =>
      simp only [outputs, follow, henter, List.length_cons, Nat.add_right_cancel_iff,
        List.cons_append] at hread ⊢
      rw [ih hread]

/-- A line that does not end the program changes nothing, or a command is carried out. -/
theorem enter_cases {console next : Console} {line : String} {printed : List String}
    (h : console.enter line = some (next, printed)) :
    ((∀ command, Command.parse line ≠ .ok command) ∧ next = console) ∨
      ∃ command, Command.parse line = .ok command ∧ next = (console.execute command).1 := by
  unfold enter at h
  split at h
  · next hblank =>
    refine .inl ⟨?_, (congrArg Prod.fst (Option.some.inj h)).symm⟩
    intro command hparse
    rw [Command.parse, List.isEmpty_iff.1 hblank] at hparse
    cases hparse
  · split at h
    · cases h
    · next command _ hparse =>
      exact .inr ⟨command, hparse, (congrArg Prod.fst (Option.some.inj h)).symm⟩
    · next error hparse =>
      refine .inl ⟨?_, (congrArg Prod.fst (Option.some.inj h)).symm⟩
      intro command hother
      rw [hparse] at hother
      cases hother

/-- What holds at first and is kept by every command holds after all lines. -/
theorem follow_induction {P : Console → Prop} {console : Console} (h : P console)
    (hexecute : ∀ console command, P console → P (execute console command).1)
    (lines : List String) : P (console.follow lines) := by
  induction lines generalizing console with
  | nil => exact h
  | cons line rest ih =>
    rw [follow]
    cases henter : console.enter line with
    | none => exact h
    | some entered =>
      apply ih
      obtain ⟨-, hnext⟩ | ⟨command, -, hnext⟩ := enter_cases henter
      · rw [hnext]
        exact h
      · rw [hnext]
        exact hexecute console command h

end Console
end Encounter
