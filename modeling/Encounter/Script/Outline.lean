import Encounter.PartyGate
import Encounter.Script.Branches

/-!
# Scripts written as data

An outline is a list of steps that run in order; each is one call of a script, and steps that ask
carry the steps for each answer. `Outline.script` gives the script that an outline describes.
-/

namespace Encounter

/-- One step of an outline. -/
inductive Step where
  | sayNext (text : String)
  | say (text : String)
  | chat (text : String)
  | changeMap (map : MapId)
  | changeMapAt (map : MapId) (portal : PortalId)
  /-- Runs the first pick with the chosen number, `otherwise` if there is none. -/
  | askMenu (text : String) (picks : List (UInt32 × List Step)) (otherwise : List Step)
  | askYesNo (text : String) (yes no : List Step)
  /-- Drops what a flat list describes. -/
  | drop (args : List UInt32)
  /-- Writes what the script knows of its trigger, player, map and party into the chat. -/
  | report
  /-- Writes into the chat whether the gate is open. -/
  | gate (gate : PartyGate)
  /-- Runs the branch of a key, then writes the state of the branches into the chat. -/
  | dispatch (branches : List (UInt32 × List Step)) (key : UInt32)
  | park
  | fail (error : ScriptError)

/-- A script written as a list of steps. -/
abbrev Outline := List Step

namespace Outline

/-- The party as a report names it. -/
def partyText : Option PartyView → String
  | none => "no party"
  | some party => "party of " ++ toString party.size ++ " led by " ++ toString party.leader

/-- What a script knows when it starts, in one line. -/
def reportText (ctx : Context) : String :=
  toString ctx.trigger ++ "; " ++ toString ctx.player.id ++ " " ++ ctx.player.name ++ " level " ++
    toString ctx.player.level ++ " from " ++ toString ctx.player.map ++ "; at " ++
    toString ctx.map.id ++ "; " ++ partyText ctx.party

/-- What a gate says. -/
def gateText (ctx : Context) (gate : PartyGate) : String :=
  match gate.check ctx.player ctx.map.id ctx.party with
  | .ok () => "gate open"
  | .error rejection => rejection.message

/-- A truth value in words. -/
def boolText (b : Bool) : String := if b then "true" else "false"

/-- Runs the branch of a key and then writes the state of the branches into the chat. -/
def runBranches (ctx : Context) (branches : Branches UInt32) (key : UInt32) : Script Unit := do
  let ran ← branches.dispatch key ctx
  Script.chat ("len " ++ toString branches.size ++ " empty " ++ boolText branches.isEmpty ++
    " bound " ++ boolText (branches.find? key).isSome ++ " ran " ++ boolText ran)

/-- The script of the first entry with that number. -/
def pick (number : UInt32) (otherwise : Script Unit) : List (UInt32 × Script Unit) → Script Unit
  | [] => otherwise
  | (n, script) :: rest => if n = number then script else pick number otherwise rest

mutual

/-- The script of one step. -/
def stepScript (ctx : Context) : Step → Script Unit
  | .sayNext text => Script.sayNext text
  | .say text => Script.say text
  | .chat text => Script.chat text
  | .changeMap map => Script.changeMap map
  | .changeMapAt map portal => Script.changeMapAt map portal
  | .askMenu text picks otherwise =>
    let choices := choiceScripts ctx picks
    let rest := script ctx otherwise
    (Script.askMenu text).bind fun number => pick number rest choices
  | .askYesNo text yes no =>
    let ifYes := script ctx yes
    let ifNo := script ctx no
    (Script.askYesNo text).bind fun answer => if answer.isYes then ifYes else ifNo
  | .drop args => (Script.readDrops args).bind Script.dropItems
  | .report => Script.chat (reportText ctx)
  | .gate gate => Script.chat (gateText ctx gate)
  | .dispatch branches key =>
    let scripts := choiceScripts ctx branches
    runBranches ctx (Branches.ofList (scripts.map fun e => (e.1, ⟨"branch", fun _ => e.2⟩))) key
  | .park => Script.park (Script.done ())
  | .fail error => Script.fail error

/-- The script that runs the steps in order. -/
def script (ctx : Context) : List Step → Script Unit
  | [] => Script.done ()
  | step :: rest =>
    let after := script ctx rest
    (stepScript ctx step).bind fun _ => after

/-- The scripts of numbered choices. -/
def choiceScripts (ctx : Context) : List (UInt32 × List Step) → List (UInt32 × Script Unit)
  | [] => []
  | choice :: rest => choiceScript ctx choice :: choiceScripts ctx rest

/-- The script of one numbered choice. -/
def choiceScript (ctx : Context) : UInt32 × List Step → UInt32 × Script Unit
  | (number, steps) => (number, script ctx steps)

end

/-- The outline as a script with a name. -/
def named (name : String) (outline : Outline) : NamedScript := ⟨name, fun ctx => script ctx outline⟩

end Outline

end Encounter
