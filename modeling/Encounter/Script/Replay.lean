import Encounter.Script.Basic

/-!
# Playing a script against a list of replies

Each prompt takes the next reply, whatever it is; with none left the script is cut off as if the
player had disconnected. A parked script goes on at once.
-/

namespace Encounter

/-- One visible act of a script. -/
inductive TranscriptEntry where
  | prompt (prompt : Prompt)
  | effect (effect : Effect)
  deriving DecidableEq, Repr

/-- What a script did and how it ended. -/
structure Transcript (α : Type) where
  entries : List TranscriptEntry
  result : Except ScriptError α

/-- Puts an entry in front. -/
def Transcript.cons {α : Type} (entry : TranscriptEntry) (t : Transcript α) : Transcript α :=
  ⟨entry :: t.entries, t.result⟩

/-- Plays the script against the replies. -/
def Script.replay {α : Type} : Script α → List Reply → Transcript α
  | done value, _ => ⟨[], .ok value⟩
  | fail error, _ => ⟨[], .error error⟩
  | emit effect next, replies => (next.replay replies).cons (.effect effect)
  | ask prompt _, [] => ⟨[.prompt prompt], .error (.cancelled .disconnected)⟩
  | ask prompt next, reply :: replies =>
    match prompt.read reply with
    | .ok value => ((next value).replay replies).cons (.prompt prompt)
    | .error error => ⟨[.prompt prompt], .error error⟩
  | park next, replies => next.replay replies

end Encounter
