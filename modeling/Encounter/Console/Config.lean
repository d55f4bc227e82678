import Encounter.Text.Blank
import Encounter.Text.Numeral

/-!
# Console configuration

The console is configured by variables. A number may have blanks around it; one that cannot be read
is ignored. Directories are taken as they are.
-/

namespace Encounter.Console

/-- The configuration of the console. -/
structure Config where
  /-- How many events a receiver may lag behind. -/
  eventBufferSize : Nat
  /-- How many commands may wait. -/
  commandBufferSize : Nat
  /-- How many notices may wait. -/
  noticeBufferSize : Nat
  /-- The size of the party formed at the start. -/
  partySize : Option Nat
  /-- The level of the player and of the party. -/
  playerLevel : UInt8
  /-- Where the binding file lies; the bindings of the cast are used if there is none. -/
  dataDir : Option String
  /-- Where log files go. -/
  logDir : Option String
  deriving DecidableEq, Repr

namespace Config

/-- A variable read as a number of at most 64 bits. -/
def size? (lookup : String → Option String) (name : String) : Option Nat :=
  (lookup name).bind fun value => Text.size? (Text.trim value)

/-- A variable read as a number of at most eight bits. -/
def byte? (lookup : String → Option String) (name : String) : Option UInt8 :=
  (lookup name).bind fun value => Text.byte? (Text.trim value)

/-- The configuration given by the variables. -/
def ofLookup (lookup : String → Option String) : Config where
  eventBufferSize := ((size? lookup "SCRIPT_EVENT_BUFFER").map (max 1)).getD 100
  commandBufferSize := ((size? lookup "SCRIPT_COMMAND_BUFFER").map (max 1)).getD 32
  noticeBufferSize := 32
  partySize := size? lookup "SCRIPT_PARTY_SIZE"
  playerLevel := ((byte? lookup "SCRIPT_PLAYER_LEVEL").map (max 1)).getD 30
  dataDir := lookup "SCRIPT_DATA_DIR"
  logDir := lookup "SCRIPT_LOG_DIR"

end Config

end Encounter.Console
