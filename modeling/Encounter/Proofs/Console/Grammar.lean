import Mathlib
import Encounter.Console.Basic
import Encounter.Proofs.Script.Error
import Encounter.Proofs.Text.Numeral

/-!
# The commands of the console

A line is a command exactly if its words are a verb, in any letter case, with the arguments that are
documented for it. Neither blanks around and between the words nor the letter case of the verb matter,
and the lines without words are just those that the console passes over.
-/

namespace Encounter.Console

open Text (Unsigned)

/-- The commands as they are documented: a verb, its arguments, and what they ask for. -/
inductive Command.Documented : String → List String → Command → Prop where
  | npc {id map : UInt32} {first second : String} (hid : Unsigned id.toNat first.toList)
      (hmap : Unsigned map.toNat second.toList) : Documented "npc" [first, second] (.npc ⟨id⟩ ⟨map⟩)
  | reactor {id map : UInt32} {first second : String} (hid : Unsigned id.toNat first.toList)
      (hmap : Unsigned map.toNat second.toList) :
      Documented "reactor" [first, second] (.reactor ⟨id⟩ ⟨map⟩)
  | ok : Documented "ok" [] (.reply .dismissed)
  | next : Documented "next" [] (.reply .dismissed)
  | pick {n : UInt32} {word : String} (hn : Unsigned n.toNat word.toList) :
      Documented "pick" [word] (.reply (.selection n))
  | yes : Documented "yes" [] (.reply (.answer 1))
  | no : Documented "no" [] (.reply (.answer 0))
  | move {map : UInt32} {word : String} (hmap : Unsigned map.toNat word.toList) :
      Documented "move" [word] (.move ⟨map⟩)
  | leave : Documented "party" ["none"] (.party none)
  | party {size : Nat} {word : String} (hsize : Unsigned size word.toList) (hfits : size ≤ 8) :
      Documented "party" [word] (.party (some size))
  | loot : Documented "loot" [] .loot
  | disconnect : Documented "disconnect" [] .disconnect
  | sessions : Documented "sessions" [] .sessions
  | help : Documented "help" [] .help
  | mark : Documented "?" [] .help
  | quit : Documented "quit" [] .quit
  | exit : Documented "exit" [] .quit

variable {word : String}

private theorem readNumber_eq_ok_iff {n : UInt32} :
    readNumber word = .ok n ↔ Unsigned n.toNat word.toList := by
  rw [← Text.word?_eq_some_iff, readNumber]
  split
  · next hread => simp [hread]
  · next hread => simp [hread]

private theorem readSize_eq_ok_iff {size : Nat} :
    readSize word = .ok size ↔ Unsigned size word.toList ∧ size ≤ 8 := by
  constructor
  · intro h
    unfold readSize at h
    split at h
    · next n hn =>
      split at h
      · cases h
      · next hfits =>
        cases h
        exact ⟨(Text.size?_eq_some_iff.1 hn).1, Nat.not_lt.1 hfits⟩
    · cases h
  · rintro ⟨hwritten, hfits⟩
    have hsize : Text.size? word = some size :=
      Text.size?_eq_some_iff.2 ⟨hwritten, Nat.lt_of_le_of_lt hfits (by decide)⟩
    rw [readSize, hsize]
    exact if_neg (Nat.not_lt.2 hfits)

/-- A step that succeeds goes on with what it read. -/
private theorem bind_eq_ok_iff {ε α β : Type} {step : Except ε α} {next : α → Except ε β} {b : β} :
    step >>= next = .ok b ↔ ∃ a, step = .ok a ∧ next a = .ok b := by
  cases step <;> simp [bind, Except.bind]

/-- A step that does not fail in some way does not make what follows fail so. -/
private theorem bind_ne_error {ε α β : Type} {step : Except ε α} {next : α → Except ε β} {error : ε}
    (hstep : step ≠ .error error) (hnext : ∀ a, next a ≠ .error error) :
    step >>= next ≠ .error error := by
  cases step with
  | error other => exact fun h => hstep (congrArg Except.error (Except.error.inj h))
  | ok a => exact hnext a

private theorem readNumber_ne_empty (word : String) : readNumber word ≠ .error .empty := by
  unfold readNumber
  split <;> simp

private theorem readSize_ne_empty (word : String) : readSize word ≠ .error .empty := by
  unfold readSize
  split
  · split <;> simp
  · simp

namespace Command

/-- A verb in lower case and its arguments are taken for the command for which they are documented. -/
private theorem ofWords_eq_ok_iff {verb : String} {arguments : List String} {command : Command} :
    ofWords verb arguments = .ok command ↔ Documented verb arguments command := by
  constructor
  · intro h
    unfold ofWords at h
    split at h
    · obtain ⟨id, hid, h⟩ := bind_eq_ok_iff.1 h
      obtain ⟨map, hmap, ⟨⟩⟩ := bind_eq_ok_iff.1 h
      exact .npc (readNumber_eq_ok_iff.1 hid) (readNumber_eq_ok_iff.1 hmap)
    · obtain ⟨id, hid, h⟩ := bind_eq_ok_iff.1 h
      obtain ⟨map, hmap, ⟨⟩⟩ := bind_eq_ok_iff.1 h
      exact .reactor (readNumber_eq_ok_iff.1 hid) (readNumber_eq_ok_iff.1 hmap)
    · cases h
      exact .ok
    · cases h
      exact .next
    · obtain ⟨n, hn, ⟨⟩⟩ := bind_eq_ok_iff.1 h
      exact .pick (readNumber_eq_ok_iff.1 hn)
    · cases h
      exact .yes
    · cases h
      exact .no
    · obtain ⟨map, hmap, ⟨⟩⟩ := bind_eq_ok_iff.1 h
      exact .move (readNumber_eq_ok_iff.1 hmap)
    · split at h
      · next hnone =>
        cases h
        exact hnone ▸ .leave
      · obtain ⟨size, hsize, ⟨⟩⟩ := bind_eq_ok_iff.1 h
        obtain ⟨hwritten, hfits⟩ := readSize_eq_ok_iff.1 hsize
        exact .party hwritten hfits
    · cases h
      exact .loot
    · cases h
      exact .disconnect
    · cases h
      exact .sessions
    · cases h
      exact .help
    · cases h
      exact .mark
    · cases h
      exact .quit
    · cases h
      exact .exit
    · cases h
  · intro h
    cases h with
    | npc hid hmap | reactor hid hmap =>
      rw [ofWords, readNumber_eq_ok_iff.2 hid, readNumber_eq_ok_iff.2 hmap]
      rfl
    | pick hn =>
      rw [ofWords, readNumber_eq_ok_iff.2 hn]
      rfl
    | move hmap =>
      rw [ofWords, readNumber_eq_ok_iff.2 hmap]
      rfl
    | @party size word hsize hfits =>
      have hnone : word ≠ "none" := by
        have hread : Text.numeral? "none".toList = none := by decide
        rintro rfl
        rw [Text.numeral?_eq_some_iff.2 hsize] at hread
        cases hread
      rw [ofWords, if_neg hnone, readSize_eq_ok_iff.2 ⟨hsize, hfits⟩]
      rfl
    | _ => rfl

/-- Where there is a verb the command is not empty. -/
private theorem ofWords_ne_empty (verb : String) (arguments : List String) :
    ofWords verb arguments ≠ .error .empty := by
  unfold ofWords
  split
  case h_1 | h_2 =>
    exact bind_ne_error (readNumber_ne_empty _) fun _ => bind_ne_error (readNumber_ne_empty _) nofun
  case h_5 | h_8 => exact bind_ne_error (readNumber_ne_empty _) nofun
  case h_9 =>
    split
    · nofun
    · exact bind_ne_error (readSize_ne_empty _) nofun
  all_goals nofun

/-- The verb in lower case. -/
def lower (verb : String) : String := String.ofList (verb.toList.map Char.toLower)

private theorem lower_lower (verb : String) : lower (lower verb) = lower verb := by
  simp [lower, Char.toLower_toLower_eq_toLower, Function.comp_def]

variable {line verb : String} {arguments : List String}

/-- A line is taken for what its first word, in lower case, asks for with the others. -/
private theorem parse_of_spaced
    (h : Text.Spaced ((verb :: arguments).map String.toList) line.toList) :
    parse line = ofWords (lower verb) arguments := by
  rw [parse, Text.words_eq_iff.2 h]
  rfl

/-- The words, the verb in lower case, may be written with one blank between them. -/
private theorem spaced_plain (h : Text.Spaced ((verb :: arguments).map String.toList) line.toList) :
    Text.Spaced ((lower verb :: arguments).map String.toList)
      (" ".intercalate (lower verb :: arguments)).toList := by
  obtain ⟨⟨hne, hverb⟩, harguments⟩ := List.forall_mem_cons.1 h.of_mem
  rw [String.toList_intercalate]
  refine Text.spaced_intercalate (List.forall_mem_cons.2 ⟨⟨?_, ?_⟩, harguments⟩)
  · simpa [lower] using hne
  · rw [lower, String.toList_ofList]
    exact hverb.map_toLower

/-- A line without words consists of blanks. -/
private theorem words_eq_nil_iff : Text.words line = [] ↔ Text.Blanks line.toList := by
  rw [Text.words_eq_iff]
  constructor
  · intro h
    cases h with
    | nil hgap => exact hgap
  · exact .nil

/-- No other error reads like that of an empty line. -/
private theorem message_eq_empty_iff {error : CommandError} :
    error.message = "empty command" ↔ error = .empty := by
  refine ⟨fun h => ?_, congrArg _⟩
  -- the texts are written out, since the equations of `message` take too long to unfold
  cases error with
  | empty => rfl
  | badNumber word =>
    change "'" ++ word ++ "' is not a valid number" = _ at h
    exact absurd h (ne_of_take 1 (by simp))
  | partyTooLarge =>
    change "a party holds at most " ++ toString maxParty ++ " players here" = _ at h
    exact absurd h (ne_of_take 1 (by simp))
  | unknown verb arguments =>
    change "cannot parse '" ++ verb ++ "' with " ++ toString arguments ++ " argument(s)" = _ at h
    exact absurd h (ne_of_take 1 (by simp))

/-- The command is empty exactly in a line of blanks. -/
private theorem parse_eq_empty_iff : parse line = .error .empty ↔ Text.Blanks line.toList := by
  rw [← words_eq_nil_iff, parse]
  split
  · next hnone => simp [hnone]
  · next verb arguments hwords =>
    exact iff_of_false (ofWords_ne_empty _ _) (by simp [hwords])

end Command

/-! ## Lines that are passed over -/

/-- Nobody is there, and nothing is bound. -/
def deserted (map : MapId) : Console := ⟨.new .empty .empty, 1, map, 0⟩

private theorem moveTo_deserted (map : MapId) : (deserted map).moveTo map =
    (deserted map, []) := if_pos rfl

private theorem map_moveTo (console : Console) (map : MapId) :
    (console.moveTo map).1.map = map := by
  unfold moveTo
  dsimp only
  split
  · next hhere => exact hhere
  · rfl

/-- Whoever touches something where nothing is bound is told so. -/
private theorem fire_deserted (trigger : Trigger) :
    (deserted trigger.map).fire trigger = (deserted trigger.map, ["nothing happens"]) := by
  rw [fire, moveTo_deserted]
  rfl

/-- Every command that goes on does something at some console. -/
private theorem exists_execute_ne {command : Command} (h : command ≠ .quit) :
    ∃ console : Console, console.execute command ≠ (console, []) := by
  cases command with
  | npc id map =>
    exact ⟨deserted map, fun hsame => nomatch (fire_deserted (.npc id map)).symm.trans hsame⟩
  | reactor id map =>
    exact ⟨deserted map, fun hsame => nomatch (fire_deserted (.reactor id map)).symm.trans hsame⟩
  | move map =>
    obtain ⟨here, hhere⟩ : ∃ here : MapId, here ≠ map := ⟨⟨map.val + 1⟩, by grind [MapId]⟩
    refine ⟨deserted here, fun hsame => hhere ?_⟩
    calc
      here = ((deserted here).execute (.move map)).1.map := by rw [hsame]; rfl
      _ = map := map_moveTo (deserted here) map
  | party size =>
    cases size <;> exact ⟨deserted startMap, fun hsame => nomatch congrArg Prod.snd hsame⟩
  | quit => exact absurd rfl h
  | _ => exact ⟨deserted startMap, fun hsame => nomatch congrArg Prod.snd hsame⟩

private theorem withEvents_eq_self_iff {console : Console} {step : Console × List String} :
    console.withEvents step = (console, []) ↔ step = (console, []) := by
  constructor
  · intro h
    obtain ⟨hconsole, hprinted⟩ := Prod.mk.inj h
    exact Prod.ext hconsole (List.append_eq_nil_iff.1 hprinted).1
  · rintro rfl
    simp [withEvents]

/-- Exactly the lines of blanks are passed over at every console. -/
private theorem passed_iff {line : String} :
    (∀ console : Console, console.enter line = some (console, [])) ↔ Text.Blanks line.toList := by
  rw [← Command.words_eq_nil_iff]
  constructor
  · intro hpassed
    by_contra hwords
    have hsome : ¬ (Text.words line).isEmpty = true := mt List.isEmpty_iff.1 hwords
    by_cases hquit : ∀ command, Command.parse line = .ok command → command = .quit
    · have henter := hpassed (deserted startMap)
      rw [enter, if_neg hsome] at henter
      split at henter
      · cases henter
      · next command hgoes hparse => exact hgoes (hquit command hparse)
      · cases henter
    · obtain ⟨command, hparse, hgoes⟩ := by simpa using hquit
      obtain ⟨console, hne⟩ := exists_execute_ne hgoes
      have henter := hpassed console
      rw [enter, if_neg hsome, hparse] at henter
      split at henter
      · next hquit =>
        cases hquit
        exact hgoes rfl
      · next hsame =>
        cases hsame
        exact hne (withEvents_eq_self_iff.1 (Option.some.inj henter))
      · next hfailed => cases hfailed
  · intro hwords console
    rw [enter, hwords]
    rfl

/-- A line is taken for a command exactly if its words are a verb, in any letter case, and arguments
that are documented for that command. With the verb in lower case and one blank between the words it
is taken for the same. The lines whose command is empty are those that trimming leaves nothing of, and
the console passes over just these. -/
theorem Command.parse_line_exact (line : String) :
    (∀ command, parse line = .ok command ↔ ∃ verb arguments,
      Text.Spaced ((verb :: arguments).map String.toList) line.toList ∧
        Documented (lower verb) arguments command) ∧
    (∀ verb arguments, Text.Spaced ((verb :: arguments).map String.toList) line.toList →
      parse line = parse (" ".intercalate (lower verb :: arguments))) ∧
    ((∃ error, parse line = .error error ∧ error.message = "empty command") ↔
      Text.Blanks line.toList) ∧
    (Text.trim line = "" ↔ Text.Blanks line.toList) ∧
    ((∀ console : Console, console.enter line = some (console, [])) ↔ Text.Blanks line.toList) := by
  refine ⟨fun command => ⟨fun h => ?_, ?_⟩, fun verb arguments hwords => ?_, ?_,
    Text.trim_eq_empty_iff line, passed_iff⟩
  · cases hwords : Text.words line with
    | nil =>
      rw [parse, hwords] at h
      cases h
    | cons verb arguments =>
      have hspaced := Text.words_eq_iff.1 hwords
      rw [parse_of_spaced hspaced] at h
      exact ⟨verb, arguments, hspaced, ofWords_eq_ok_iff.1 h⟩
  · rintro ⟨verb, arguments, hspaced, hdocumented⟩
    rw [parse_of_spaced hspaced]
    exact ofWords_eq_ok_iff.2 hdocumented
  · rw [parse_of_spaced hwords, parse_of_spaced (spaced_plain hwords), lower_lower]
  · rw [← parse_eq_empty_iff]
    constructor
    · rintro ⟨error, herror, hmessage⟩
      rw [herror, message_eq_empty_iff.1 hmessage]
    · exact fun h => ⟨.empty, h, rfl⟩

end Encounter.Console
