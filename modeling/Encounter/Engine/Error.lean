import Encounter.Registry

/-!
# Engine errors

Why the engine refuses a request.
-/

namespace Encounter

/-- Why the engine refuses a request. -/
inductive EngineError where
  /-- The engine was shut down. -/
  | closed
  /-- No world was given to build the engine on. -/
  | missingWorld
  /-- A binding names a script that the catalog lacks. -/
  | unknownScript (cause : UnknownScript)
  /-- The world does not know the player. -/
  | unknownPlayer (player : PlayerId)
  /-- The player is in a conversation that the trigger must not disturb. -/
  | sessionBusy (player : PlayerId) (active : Trigger)
  /-- The player has no session at all. -/
  | noActiveSession (player : PlayerId)
  /-- None of the player's sessions waits for an answer. -/
  | notAwaitingInput (player : PlayerId)
  /-- The reply does not answer the prompt. -/
  | replyMismatch (player : PlayerId) (prompt : PromptKind) (reply : Reply)
  deriving DecidableEq, Repr

/-- The text of the error. -/
def EngineError.message : EngineError → String
  | closed => "session worker command channel closed"
  | missingWorld => "runtime requires a host world to be configured before building"
  | unknownScript cause => cause.message
  | unknownPlayer player => toString player ++ " is not known to the host world"
  | sessionBusy player active =>
    toString player ++ " is already in a conversation started by " ++ toString active
  | noActiveSession player => toString player ++ " has no active conversation"
  | notAwaitingInput player => toString player ++ " is not waiting for input"
  | replyMismatch player prompt reply =>
    reply.quoted ++ " does not answer the pending " ++ prompt.name ++ " prompt of " ++
      toString player

end Encounter
