import Encounter.Dialogue.Prompt

/-!
# Script errors

Why a script ends early.
-/

namespace Encounter

/-- Why a conversation was cut off. -/
inductive CancelReason where
  | disconnected
  | mapChanged
  | conversationOpen
  | shutdown
  deriving DecidableEq, Repr

namespace CancelReason

/-- The name of a reason. -/
def name : CancelReason → String
  | disconnected => "disconnected"
  | mapChanged => "map_changed"
  | conversationOpen => "conversation_open"
  | shutdown => "shutdown"

/-- All reasons. -/
def all : List CancelReason := [disconnected, mapChanged, conversationOpen, shutdown]

/-- The reason with exactly that name. -/
def ofName? (s : String) : Option CancelReason := all.find? fun reason => reason.name == s

end CancelReason

/-- Why a script ends early. -/
inductive ScriptError where
  /-- The conversation was cut off. -/
  | cancelled (reason : CancelReason)
  /-- A prompt got a reply of the wrong kind. -/
  | unexpectedReply (prompt : PromptKind) (reply : Reply)
  /-- A menu got a selection that it does not offer. -/
  | selectionOutOfRange (selection : UInt32)
  /-- A flat drop list of that length has no reading. -/
  | malformedDropArgs (length : Nat)
  deriving DecidableEq, Repr

namespace ScriptError

/-- The text of the error. -/
def message : ScriptError → String
  | cancelled reason => "conversation cancelled: " ++ reason.name
  | unexpectedReply prompt reply =>
    prompt.name ++ " prompt cannot be answered with " ++ reply.quoted
  | selectionOutOfRange selection =>
    "menu selection " ++ toString selection ++ " is not one of the offered options"
  | malformedDropArgs length =>
    "drop arguments must be (min, max, chance) followed by item/quantity pairs, got " ++
      toString length ++ " values"

/-- Was the conversation cut off? -/
def isCancellation : ScriptError → Bool
  | cancelled _ => true
  | _ => false

end ScriptError

end Encounter
