import Encounter.PartyGate
import Encounter.Trigger
import Encounter.Dialogue.Prompt

/-!
# Console commands

A line is cut into words at blanks. The first word is a verb, in any ASCII letter case; the number of
further words has to fit it exactly.
-/

namespace Encounter.Console

/-- A command of the console. -/
inductive Command where
  /-- Talks to an NPC on a map. -/
  | npc (id : NpcId) (map : MapId)
  /-- Hits a reactor on a map. -/
  | reactor (id : ReactorId) (map : MapId)
  /-- Answers the open dialogue. -/
  | reply (reply : Reply)
  /-- Walks to a map. -/
  | move (map : MapId)
  /-- Forms a party of that size, the player included, or leaves it. -/
  | party (size : Option Nat)
  /-- Picks up everything on the map. -/
  | loot
  /-- Drops the connection. -/
  | disconnect
  /-- Lists the sessions. -/
  | sessions
  /-- Shows the commands. -/
  | help
  /-- Ends the program. -/
  | quit
  deriving DecidableEq, Repr

/-- The largest party that the console forms; it leaves room to try one that is too large. -/
def maxParty : Nat := PartyGate.maxPartySize + 2

/-- Why a line is no command. -/
inductive CommandError where
  | empty
  | badNumber (word : String)
  | partyTooLarge
  /-- No command has that verb in lower case and that number of further words. -/
  | unknown (verb : String) (arguments : Nat)
  deriving DecidableEq, Repr

/-- The text of the error. -/
def CommandError.message : CommandError → String
  | empty => "empty command"
  | badNumber word => "'" ++ word ++ "' is not a valid number"
  | partyTooLarge => "a party holds at most " ++ toString maxParty ++ " players here"
  | unknown verb arguments =>
    "cannot parse '" ++ verb ++ "' with " ++ toString arguments ++ " argument(s)"

/-- Reads a number of 32 bits. -/
def readNumber (word : String) : Except CommandError UInt32 :=
  match Text.word? word with
  | some n => .ok n
  | none => .error (.badNumber word)

/-- Reads the size of a party. -/
def readSize (word : String) : Except CommandError Nat :=
  match Text.size? word with
  | some n => if maxParty < n then .error .partyTooLarge else .ok n
  | none => .error (.badNumber word)

/-- The command of a verb in lower case and the further words, read from left to right. -/
def Command.ofWords (verb : String) (arguments : List String) : Except CommandError Command :=
  match verb, arguments with
  | "npc", [id, map] => do return npc ⟨← readNumber id⟩ ⟨← readNumber map⟩
  | "reactor", [id, map] => do return reactor ⟨← readNumber id⟩ ⟨← readNumber map⟩
  | "ok", [] => .ok (reply .dismissed)
  | "next", [] => .ok (reply .dismissed)
  | "pick", [n] => do return reply (.selection (← readNumber n))
  | "yes", [] => .ok (reply (.answer 1))
  | "no", [] => .ok (reply (.answer 0))
  | "move", [map] => do return move ⟨← readNumber map⟩
  | "party", [size] =>
    if size = "none" then .ok (party none) else do return party (some (← readSize size))
  | "loot", [] => .ok loot
  | "disconnect", [] => .ok disconnect
  | "sessions", [] => .ok sessions
  | "help", [] => .ok help
  | "?", [] => .ok help
  | "quit", [] => .ok quit
  | "exit", [] => .ok quit
  | verb, arguments => .error (.unknown verb arguments.length)

/-- Reads a line. -/
def Command.parse (line : String) : Except CommandError Command :=
  match Text.words line with
  | [] => .error .empty
  | verb :: arguments => ofWords (String.ofList (verb.toList.map Char.toLower)) arguments

end Encounter.Console
