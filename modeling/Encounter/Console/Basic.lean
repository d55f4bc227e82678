import Encounter.Console.Command
import Encounter.Console.Config
import Encounter.Console.Render
import Encounter.Binding.Load
import Encounter.Engine.Command

/-!
# The console program

The console plays one player, the hero, and the members of the hero's party, who follow wherever the
hero walks. Each line is a command; what it prints comes first, then the events that it caused.
-/

namespace Encounter

/-- The state of the console. -/
structure Console where
  engine : Engine
  /-- The level of the hero and of the members. -/
  level : UInt8
  /-- Where the hero last was known to be. -/
  map : MapId
  /-- The size of the party with the hero, 0 without a party. -/
  partySize : Nat

namespace Console

/-- The number of the hero. -/
def hero : PlayerId := ⟨1⟩

/-- Where the hero begins. -/
def startMap : MapId := ⟨100000200⟩

/-- The list of commands. -/
def helpText : String := "\n".intercalate
  ["commands:",
    "  npc <id> <map>        talk to an NPC standing on <map>",
    "  reactor <id> <map>    hit a reactor on <map>",
    "  ok                    dismiss the current dialogue",
    "  pick <n>              choose menu option <n>",
    "  yes | no              answer a yes/no question",
    "  move <map>            walk to another map",
    "  party <size> | none   form a party of <size> (leader included) or leave it",
    "  loot                  pick up everything on the current map",
    "  disconnect            drop the connection",
    "  sessions              list active sessions",
    "  quit                  exit"]

/-- The numbers of the members besides the hero: 2 up to the size of the party. -/
def memberIds (partySize : Nat) : List PlayerId :=
  (List.range (partySize - 1)).map fun i => ⟨UInt32.ofNat (i + 2)⟩

/-- Changes the world. -/
def editWorld (console : Console) (edit : World → World) : Console :=
  { console with engine := console.engine.editWorld edit }

/-- Places the hero and the members on the map. -/
def spawnPlayers (console : Console) : Console :=
  console.editWorld fun world =>
    (memberIds console.partySize).foldl
      (fun world id =>
        world.upsertPlayer ⟨id, "member" ++ toString id.val, console.level, console.map⟩)
      (world.upsertPlayer ⟨hero, "hero", console.level, console.map⟩)

/-- Takes the members out of the world. -/
def removeMembers (console : Console) : Console :=
  console.editWorld fun world => (memberIds console.partySize).foldl World.removePlayer world

/-- Forms a party of the size, but of one at least and `maxParty` at most. -/
def formParty (console : Console) (size : Nat) : Console × List String :=
  let size := min (max 1 size) maxParty
  let console := { console.removeMembers with partySize := size }.spawnPlayers
  (console.editWorld fun world => world.formParty hero (memberIds size),
    ["formed a party of " ++ toString size])

/-- Leaves the party; its members leave the world. -/
def leaveParty (console : Console) : Console × List String :=
  let console := console.removeMembers.editWorld fun world => world.leaveParty hero
  ({ console with partySize := 0 }, ["left the party"])

/-- Walks to a map with the members, unless the hero is there. -/
def moveTo (console : Console) (map : MapId) : Console × List String :=
  let here := (console.engine.world.playerMap? hero).getD console.map
  if here = map then ({ console with map := here }, [])
  else
    let console := { console with map := map }.spawnPlayers
    let (engine, answer) := console.engine.perform (.playerMoved hero map)
    ({ console with engine },
      match answer with
      | .ok (.cancelled true) => ["the conversation ends as you walk away"]
      | .ok _ => []
      | .error error => ["! " ++ error.message])

/-- Walks to the map of a trigger and touches it. -/
def fire (console : Console) (trigger : Trigger) : Console × List String :=
  let (console, walked) := console.moveTo trigger.map
  let (engine, answer) := console.engine.perform (.trigger hero trigger)
  ({ console with engine },
    walked ++
      match answer with
      | .ok (.triggered (.queued id)) => ["-- " ++ toString id ++ " waits for the previous one"]
      | .ok (.triggered .unbound) => ["nothing happens"]
      | .ok _ => []
      | .error error => ["! " ++ error.message])

/-- Answers the open dialogue. -/
def reply (console : Console) (reply : Reply) : Console × List String :=
  let (engine, answer) := console.engine.perform (.respond hero reply)
  ({ console with engine },
    match answer with
    | .ok _ => []
    | .error error => ["! " ++ error.message])

/-- Picks up everything on the map. -/
def loot (console : Console) : Console × List String :=
  let (picked, world) := console.engine.world.pickUp console.map
  (console.editWorld fun _ => world,
    if picked.isEmpty then ["nothing to pick up"]
    else picked.map fun placement => "picked up " ++ describeDrop placement)

/-- Drops the connection. -/
def disconnect (console : Console) : Console × List String :=
  let (engine, answer) := console.engine.perform (.disconnect hero)
  ({ console with engine },
    match answer with
    | .ok (.cancelled false) => ["no conversation to drop"]
    | .ok _ => []
    | .error error => ["! " ++ error.message])

/-- Lists the sessions. -/
def sessions (console : Console) : Console × List String :=
  let (engine, answer) := console.engine.perform .sessions
  ({ console with engine },
    match answer with
    | .ok (.sessions []) => ["no active sessions"]
    | .ok (.sessions infos) => infos.map toString
    | .ok _ => []
    | .error error => ["! " ++ error.message])

/-- Carries out a command; `quit` does nothing here. -/
def execute (console : Console) : Command → Console × List String
  | .npc id map => console.fire (.npc id map)
  | .reactor id map => console.fire (.reactor id map)
  | .reply reply => console.reply reply
  | .move map => console.moveTo map
  | .party (some size) => console.formParty size
  | .party none => console.leaveParty
  | .loot => console.loot
  | .disconnect => console.disconnect
  | .sessions => console.sessions
  | .help => (console, [helpText])
  | .quit => (console, [])

/-- Adds to what a step printed the events that it caused. -/
def withEvents (before : Console) (step : Console × List String) : Console × List String :=
  (step.1, step.2 ++ (step.1.engine.log.drop before.engine.log.length).map render)

/-- Reads a line and prints what comes of it; none for a line that ends the program. Blank lines do
nothing. -/
def enter (console : Console) (line : String) : Option (Console × List String) :=
  if (Text.words line).isEmpty then some (console, [])
  else
    match Command.parse line with
    | .ok .quit => none
    | .ok command => some (console.withEvents (console.execute command))
    | .error error => some (console, ["! " ++ error.message])

/-- What each line prints, up to the line that ends the program. -/
def outputs (console : Console) : List String → List (List String)
  | [] => []
  | line :: rest =>
    match console.enter line with
    | none => []
    | some (console, printed) => printed :: console.outputs rest

/-- A console with the hero on the start map, and the party of the configuration if there is one;
the last thing printed is the list of commands. -/
def start (config : Config) (registry : Registry) : Console × List String :=
  let console : Console := ⟨.new registry .empty, config.playerLevel, startMap, 0⟩
  let console := console.spawnPlayers
  let (console, printed) :=
    match config.partySize with
    | some size => console.formParty size
    | none => (console, [])
  (console, printed ++ [helpText])

/-- Why the console does not start. -/
inductive StartError where
  | load (directory : String) (cause : LoadFailure)
  | unknownScript (cause : UnknownScript)
  deriving DecidableEq, Repr

/-- The text of the error. -/
def StartError.message : StartError → String
  | load directory cause => "loading bindings from " ++ directory ++ ": " ++ cause.message
  | unknownScript cause => cause.message

/-- The registry of the configuration, given the content of the binding file in its data directory. -/
def loadRegistry (config : Config) (content : Option ByteArray) : Except StartError Registry :=
  match config.dataDir with
  | none => .ok .builtin
  | some directory =>
    match Binding.load directory content with
    | .error cause => .error (.load directory cause)
    | .ok bindings => (Registry.ofBindings .builtin bindings).mapError .unknownScript

/-- What the program prints before the first line and for each line that it reads. -/
def run (config : Config) (content : Option ByteArray) (lines : List String) :
    Except StartError (List (List String)) :=
  (loadRegistry config content).map fun registry =>
    let (console, printed) := start config registry
    printed :: console.outputs lines

end Console

end Encounter
