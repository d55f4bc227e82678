import Encounter.Trigger
import Encounter.Effect
import Encounter.Script.Error

/-!
# Events

Everything that happens in a session is published as an event under one of three topics.
-/

namespace Encounter

/-- What an event is about. -/
inductive Topic where
  | dialogue
  | effect
  | session
  deriving DecidableEq, Repr

/-- The name of a topic. -/
def Topic.name : Topic → String
  | dialogue => "Dialogue"
  | effect => "Effect"
  | session => "Session"

/-- How a session ended. -/
inductive Outcome where
  | completed
  | cancelled (reason : CancelReason)
  | failed (message : String)
  deriving DecidableEq, Repr

/-- The outcome of a script that ended with that result. -/
def Outcome.ofResult : Except ScriptError Unit → Outcome
  | .ok () => completed
  | .error (.cancelled reason) => cancelled reason
  | .error error => failed error.message

/-- The session that an event belongs to, with its player and trigger. -/
structure Subject where
  session : SessionId
  player : PlayerId
  trigger : Trigger
  deriving DecidableEq, Repr

/-- What happened. -/
inductive Happening where
  /-- A prompt was shown. -/
  | prompted (prompt : Prompt)
  /-- An effect was carried out. -/
  | effected (effect : Effect)
  /-- The session started. -/
  | started
  /-- The session ended. -/
  | ended (outcome : Outcome)
  deriving DecidableEq, Repr

/-- Something that happened in a session. -/
structure Event where
  subject : Subject
  happening : Happening
  deriving DecidableEq, Repr

namespace Event

/-- The topic under which an event is published. -/
def topic (event : Event) : Topic :=
  match event.happening with
  | .prompted _ => .dialogue
  | .effected _ => .effect
  | .started => .session
  | .ended _ => .session

/-- The session of an event. -/
def session (event : Event) : SessionId := event.subject.session

/-- The player of an event. -/
def player (event : Event) : PlayerId := event.subject.player

end Event

end Encounter
