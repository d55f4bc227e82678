import Encounter.Trigger
import Encounter.Snapshot
import Encounter.Effect
import Encounter.Script.Error

/-!
# Scripts

A script is a finite tree of the calls it makes: it asks for effects, shows prompts and goes on with
their answers, and ends with a value or an error. A prompt that gets a reply it cannot use ends the
script (`Script.answer`). Nothing here says who plays the tree: see `Encounter.Script.Replay` for a
list of replies, and `Encounter.Engine` for players.
-/

namespace Encounter

/-- What a prompt of that kind hands to the script. -/
abbrev PromptKind.Answer : PromptKind → Type
  | .sayNext => Unit
  | .say => Unit
  | .askMenu => UInt32
  | .askYesNo => YesNo

/-- What the script gets for a reply to its prompt; a reply that it cannot use is an error. -/
def Prompt.read : (prompt : Prompt) → Reply → Except ScriptError prompt.kind.Answer
  | ⟨.sayNext, _⟩, .dismissed => .ok ()
  | ⟨.say, _⟩, .dismissed => .ok ()
  | ⟨.askMenu, text⟩, .selection index =>
    if Prompt.accepts ⟨.askMenu, text⟩ (.selection index) then .ok index
    else .error (.selectionOutOfRange index)
  | ⟨.askYesNo, _⟩, .answer raw => .ok (YesNo.ofRaw raw)
  | ⟨kind, _⟩, reply => .error (.unexpectedReply kind reply)

/-- A script that ends with a value of type `α`. -/
inductive Script (α : Type) where
  /-- Ends with a value. -/
  | done (value : α)
  /-- Ends with an error. -/
  | fail (error : ScriptError)
  /-- Asks for an effect and goes on at once. -/
  | emit (effect : Effect) (next : Script α)
  /-- Shows a prompt and goes on with its answer. -/
  | ask (prompt : Prompt) (next : prompt.kind.Answer → Script α)
  /-- Waits until it is released from outside. -/
  | park (next : Script α)

namespace Script

variable {α β : Type}

instance [Inhabited α] : Inhabited (Script α) := ⟨done default⟩

/-- Goes on with `f` where the script ends with a value. -/
def bind : Script α → (α → Script β) → Script β
  | done value, f => f value
  | fail error, _ => fail error
  | emit effect next, f => emit effect (next.bind f)
  | ask prompt next, f => ask prompt fun answer => (next answer).bind f
  | park next, f => park (next.bind f)

instance : Monad Script where
  pure := done
  bind := bind

/-- Goes on with the reply to a prompt, or ends with the error that the reply causes. -/
def answer (prompt : Prompt) (next : prompt.kind.Answer → Script α) (reply : Reply) : Script α :=
  match prompt.read reply with
  | .ok value => next value
  | .error error => fail error

/-- Shows a page with a "next" button. -/
def sayNext (text : String) : Script Unit := ask ⟨.sayNext, text⟩ done

/-- Shows a page with an "ok" button. -/
def say (text : String) : Script Unit := ask ⟨.say, text⟩ done

/-- Shows a menu and gives the number of the chosen link. -/
def askMenu (text : String) : Script UInt32 := ask ⟨.askMenu, text⟩ done

/-- Asks a question to be answered with yes or no. -/
def askYesNo (text : String) : Script YesNo := ask ⟨.askYesNo, text⟩ done

/-- Writes a line into the player's chat. -/
def chat (text : String) : Script Unit := emit (.chat text) (done ())

/-- Takes the player to a map. -/
def changeMap (map : MapId) : Script Unit := emit (.changeMap map none) (done ())

/-- Takes the player to a portal of a map. -/
def changeMapAt (map : MapId) (portal : PortalId) : Script Unit :=
  emit (.changeMap map (some portal)) (done ())

/-- Drops items and mesos at the trigger. -/
def dropItems (request : DropRequest) : Script Unit := emit (.dropItems request) (done ())

/-- Reads a flat drop list, or ends with an error. -/
def readDrops (args : List UInt32) : Script DropRequest :=
  match DropRequest.ofArgs? args with
  | some request => done request
  | none => fail (.malformedDropArgs args.length)

end Script

/-- What a script knows when it starts. -/
structure Context where
  trigger : Trigger
  player : PlayerView
  map : MapView
  party : Option PartyView
  deriving DecidableEq, Repr

/-- A script with the name that bindings call it by. -/
structure NamedScript where
  name : String
  run : Context → Script Unit

/-- The script of that name that does nothing. -/
def NamedScript.idle (name : String) : NamedScript := ⟨name, fun _ => .done ()⟩

end Encounter
