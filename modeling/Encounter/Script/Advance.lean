import Encounter.Script.Basic

/-!
# Running a script to its next stop

A script carries out effects until it waits for something or ends.
-/

namespace Encounter

/-- Where a script stops. -/
inductive Stop where
  /-- It ended with that result. -/
  | ended (result : Except ScriptError Unit)
  /-- It waits for the answer to a prompt. -/
  | asking (prompt : Prompt) (resume : prompt.kind.Answer → Script Unit)
  /-- It waits to be released. -/
  | parked (next : Script Unit)

/-- The effects up to the next stop, and the stop. -/
def Script.advance : Script Unit → List Effect × Stop
  | done value => ([], .ended (.ok value))
  | fail error => ([], .ended (.error error))
  | emit effect next => (effect :: next.advance.1, next.advance.2)
  | ask prompt resume => ([], .asking prompt resume)
  | park next => ([], .parked next)

end Encounter
