import Encounter.Proofs.Script.Error
import Encounter.Proofs.Console.Crew

/-!
# A hero who is always known

Whatever lines are read, the world behind the console holds the hero and the members of the hero's
party and nobody else, and the hero leads that party. So no command is refused because the hero is
unknown.
-/

namespace Encounter

namespace EngineError

/-- The reasons for which a command of a known player may be refused. -/
inductive OfKnown (player : PlayerId) : EngineError → Prop where
  | sessionBusy (active : Trigger) : OfKnown player (.sessionBusy player active)
  | noActiveSession : OfKnown player (.noActiveSession player)
  | notAwaitingInput : OfKnown player (.notAwaitingInput player)
  | replyMismatch (prompt : PromptKind) (reply : Reply) :
      OfKnown player (.replyMismatch player prompt reply)

/-- None of them reads as if the player were unknown. -/
private theorem OfKnown.message_ne {player : PlayerId} {error : EngineError}
    (h : error.OfKnown player) :
    error.message ≠ (unknownPlayer player).message := by
  cases h with
  | sessionBusy active =>
    simp only [message, String.append_assoc, ne_eq, String.append_right_inj]
    exact ne_of_take 5 (by simp)
  | noActiveSession =>
    simp only [message, ne_eq, String.append_right_inj]
    exact ne_of_take 2 (by simp)
  | notAwaitingInput =>
    simp only [message, ne_eq, String.append_right_inj]
    exact ne_of_take 9 (by simp)
  | replyMismatch prompt reply =>
    cases reply <;> exact ne_of_take 1 (by simp [message, Reply.quoted, toString])

end EngineError

namespace Engine

variable {engine : Engine} {player : PlayerId}

/-- A trigger of a known player is refused only because of a dialogue. -/
private theorem ofKnown_trigger (hknown : (engine.world.player? player).isSome) {trigger : Trigger}
    {error : EngineError} (he : (engine.trigger player trigger).2 = .error error) :
    error.OfKnown player := by
  unfold Engine.trigger at he
  split at he
  · cases he
  · split at he
    · split at he
      · cases he
        exact .sessionBusy _
      · split at he
        · next hnone =>
          rw [Option.isNone_iff_eq_none] at hnone
          rw [hnone] at hknown
          cases hknown
        · cases he
    · split at he
      · cases he
        exact .sessionBusy _
      · split at he
        · next hnone =>
          rw [hnone] at hknown
          cases hknown
        · cases he

private theorem ofKnown_respond {reply : Reply} {error : EngineError}
    (he : (engine.respond player reply).2 = .error error) : error.OfKnown player := by
  rw [respond_eq] at he
  split at he
  · split at he
    · cases he
      exact .noActiveSession
    · cases he
      exact .notAwaitingInput
  · split at he
    · cases he
      exact .notAwaitingInput
    · split at he
      · cases he
      · cases he
        exact .replyMismatch _ _

/-- No command for a known player is refused because the player is unknown. -/
private theorem ofKnown_handle (hopen : engine.accepting = true)
    (hknown : (engine.world.player? player).isSome) {command : Command}
    (hcommand : command.player? = some player) {error : EngineError}
    (he : (engine.handle command).2 = .error error) : error.OfKnown player := by
  cases command with
  | trigger other trigger =>
    cases hcommand
    rw [handle_trigger hopen] at he
    cases hresult : (engine.trigger player trigger).2 with
    | ok outcome =>
      rw [hresult] at he
      cases he
    | error cause =>
      rw [hresult] at he
      cases he
      exact ofKnown_trigger hknown hresult
  | respond other reply =>
    cases hcommand
    rw [handle_respond hopen] at he
    cases hresult : (engine.respond player reply).2 with
    | ok outcome =>
      rw [hresult] at he
      cases he
    | error cause =>
      rw [hresult] at he
      cases he
      exact ofKnown_respond hresult
  | disconnect other =>
    rw [handle_disconnect hopen] at he
    cases he
  | playerMoved other map =>
    rw [handle_playerMoved hopen] at he
    cases he
  | sessions => cases hcommand
  | shutdown => cases hcommand

end Engine

namespace Console

/-- The line with which a command is refused if the hero is unknown. -/
def strangerLine : String := "! " ++ (EngineError.unknownPlayer hero).message

/-- Only a line that begins like a refusal may be that one. -/
private theorem ne_strangerLine {line : String} (h : line.toList.take 1 ≠ ['!']) :
    strangerLine ≠ line := by
  rintro rfl
  exact h (by simp [strangerLine])

private theorem notMem_line {line : String} (h : line.toList.take 1 ≠ ['!']) : strangerLine ∉
    [line] := by
  rw [List.mem_singleton]
  exact ne_strangerLine h

private theorem strangerLine_notMem_loot (console : Console) : strangerLine ∉ console.loot.2 := by
  unfold Console.loot
  dsimp only
  split
  · exact notMem_line (by simp)
  · intro hm
    obtain ⟨placement, -, hplacement⟩ := List.mem_map.1 hm
    exact ne_strangerLine (by simp) hplacement.symm

namespace WF

variable {console : Console}

/-- No refusal that the console prints is that one. -/
private theorem ne_refusal (h : console.WF) {command : Encounter.Command}
    (hcommand : command.player? = some hero) {error : EngineError}
    (he : (console.engine.perform command).2 = .error error) :
    strangerLine ≠ "! " ++ error.message := by
  have hknown : (console.world.player? hero).isSome :=
    console.world.isSome_player?_iff.2 h.hosts.isSome_hero
  have hof := Engine.ofKnown_handle h.played.accepting hknown hcommand he
  intro hsame
  exact hof.message_ne ((String.append_right_inj _).1 hsame).symm

/-- The one line of a refusal is not that one. -/
private theorem strangerLine_notMem_refusal (h : console.WF) {command : Encounter.Command}
    (hcommand : command.player? = some hero) {error : EngineError}
    (he : (console.engine.perform command).2 = .error error) :
    strangerLine ∉ ["! " ++ error.message] := by
  rw [List.mem_singleton]
  exact h.ne_refusal hcommand he

private theorem strangerLine_notMem_moveTo (h : console.WF) (map : MapId) :
    strangerLine ∉ (console.moveTo map).2 := by
  unfold Console.moveTo
  dsimp only
  split
  · exact List.not_mem_nil
  · split
    · exact notMem_line (by simp)
    · exact List.not_mem_nil
    · next error he => exact (h.gone map).strangerLine_notMem_refusal rfl he

private theorem strangerLine_notMem_fire (h : console.WF) (trigger : Trigger) :
    strangerLine ∉ (console.fire trigger).2 := by
  unfold Console.fire
  dsimp only
  rw [List.mem_append, not_or]
  refine ⟨h.strangerLine_notMem_moveTo trigger.map, ?_⟩
  split
  · exact notMem_line (by simp)
  · exact notMem_line (by simp)
  · exact List.not_mem_nil
  · next error he => exact (h.moveTo trigger.map).strangerLine_notMem_refusal rfl he

private theorem strangerLine_notMem_reply (h : console.WF) (reply : Reply) :
    strangerLine ∉ (console.reply reply).2 := by
  unfold Console.reply
  dsimp only
  split
  · exact List.not_mem_nil
  · next error he => exact h.strangerLine_notMem_refusal rfl he

private theorem strangerLine_notMem_disconnect (h : console.WF) :
    strangerLine ∉ console.disconnect.2 := by
  unfold Console.disconnect
  dsimp only
  split
  · exact notMem_line (by simp)
  · exact List.not_mem_nil
  · next error he => exact h.strangerLine_notMem_refusal rfl he

/-- The list of sessions is never refused. -/
private theorem strangerLine_notMem_sessions (h : console.WF) :
    strangerLine ∉ console.sessions.2 := by
  have hanswer : (console.engine.perform .sessions).2 =
      .ok (.sessions console.engine.table.infos) := by
    unfold Engine.perform Engine.handle
    rw [h.played.accepting]
    rfl
  unfold Console.sessions
  dsimp only
  rw [hanswer]
  split
  · exact notMem_line (by simp)
  · intro hm
    obtain ⟨info, -, hinfo⟩ := List.mem_map.1 hm
    exact ne_strangerLine (by simp [toString, String.append_assoc]) hinfo.symm
  · exact List.not_mem_nil
  · contradiction

/-- Whatever command is carried out, it is not answered that the hero is unknown. -/
private theorem strangerLine_notMem_execute (h : console.WF) (command : Command) :
    strangerLine ∉ (console.execute command).2 := by
  cases command with
  | npc id map => exact h.strangerLine_notMem_fire (.npc id map)
  | reactor id map => exact h.strangerLine_notMem_fire (.reactor id map)
  | reply reply => exact h.strangerLine_notMem_reply reply
  | move map => exact h.strangerLine_notMem_moveTo map
  | party size =>
    cases size with
    | some size => exact notMem_line (by simp)
    | none => exact notMem_line (by simp)
  | loot => exact strangerLine_notMem_loot console
  | disconnect => exact h.strangerLine_notMem_disconnect
  | sessions => exact h.strangerLine_notMem_sessions
  | help =>
    refine notMem_line ?_
    rw [helpText, String.intercalate_cons_cons, String.toList_append, String.toList_append,
      List.append_assoc]
    simp only [String.reduceToList, List.cons_append, List.take_succ_cons, List.take_zero]
    simp
  | quit => exact List.not_mem_nil

end WF

/-- Whatever lines are read, the engine comes to rest, the party is not larger than the console
allows, and the world knows the players numbered from 1 up to its size and nobody else: the hero
alone without a party, and with a party its leader, the hero, and all that are on its roster, each
once and in order. So no command is answered that the hero is unknown. -/
theorem hero_and_party_known (config : Config) (registry : Registry) (lines : List String) :
    let console := (start config registry).1.follow lines
    console.engine.isQuiet = true ∧ console.partySize ≤ maxParty ∧
      (∀ id, (console.world.player? id).isSome ↔ id ∈ numbered (max 1 console.partySize)) ∧
      (console.partySize = 0 → console.world.partyOf? hero = none) ∧
      (console.partySize ≠ 0 → ∃ party, console.world.partyOf? hero = some party ∧
        party.leader = hero ∧ party.members.map PartyMember.id = numbered console.partySize ∧
        (numbered console.partySize).Nodup) ∧
      ∀ command, strangerLine ∉ (console.execute command).2 := by
  intro console
  have h : console.WF := (WF.start config registry).follow lines
  refine ⟨?_, h.size_le, fun id => ?_, h.hosts.partyOf?_eq_none, fun hsize => ?_,
    h.strangerLine_notMem_execute⟩
  · rw [Engine.isQuiet, h.played.quiet]
    rfl
  · rw [World.isSome_player?_iff, numbered_eq_crew]
    exact h.hosts.players id
  · have hroster : numbered console.partySize = crew console.partySize := by
      rw [← numbered_eq_crew, Nat.max_eq_right (Nat.one_le_iff_ne_zero.2 hsize)]
    refine ⟨_, h.hosts.partyOf?_eq_some hsize, rfl, ?_,
      nodup_numbered (Nat.lt_of_le_of_lt h.size_le (by decide))⟩
    rw [hroster]
    exact console.world.map_id_filterMap_member? fun id hid => (h.hosts.players id).2 hid

end Console
end Encounter
