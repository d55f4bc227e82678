import Encounter.Proofs.Script.Replay

/-!
# Where the calls of a script lead

A prompt accepts a reply exactly if the call that shows it can use the reply. So as long as only
accepted replies come in, a script goes on from call to call within its own tree
(`Script.Reaches`), and an error that it ends with stands in that tree.
-/

namespace Encounter

/-- The call that shows a prompt. -/
def Prompt.call : (prompt : Prompt) → Script prompt.kind.Answer
  | ⟨.sayNext, text⟩ => .sayNext text
  | ⟨.say, text⟩ => .say text
  | ⟨.askMenu, text⟩ => .askMenu text
  | ⟨.askYesNo, text⟩ => .askYesNo text

/-- All calls show their prompt and hand back its answer. -/
theorem Prompt.call_eq (prompt : Prompt) : prompt.call = .ask prompt .done := by
  obtain ⟨kind, text⟩ := prompt
  cases kind <;> rfl

/-- What a call results in is what it reads from the reply. -/
theorem Prompt.result_call (prompt : Prompt) (reply : Reply) :
    (prompt.call.replay [reply]).result = prompt.read reply := by
  rw [call_eq, Script.replay]
  cases prompt.read reply <;> rfl

/-- A prompt reads just the replies that it accepts. -/
theorem Prompt.accepts_iff_read (prompt : Prompt) (reply : Reply) :
    prompt.accepts reply = true ↔ ∃ value, prompt.read reply = .ok value := by
  obtain ⟨kind, text⟩ := prompt
  cases kind <;> cases reply
  case askMenu.selection index =>
    simp only [read]
    split
    · next h => simp [h]
    · next h => simp [h]
  all_goals simp [accepts, read]

namespace Script

/-- By calls that succeed a script comes to what is left of it. -/
inductive Reaches : Script Unit → Script Unit → Prop where
  | refl (script : Script Unit) : Reaches script script
  | emit {effect : Effect} {next last : Script Unit} (rest : Reaches next last) :
      Reaches (.emit effect next) last
  | ask {prompt : Prompt} {next : prompt.kind.Answer → Script Unit} {last : Script Unit}
      {reply : Reply} {value : prompt.kind.Answer} (read : prompt.read reply = .ok value)
      (rest : Reaches (next value) last) : Reaches (.ask prompt next) last
  | park {next last : Script Unit} (rest : Reaches next last) : Reaches (.park next) last

theorem Reaches.trans {first middle last : Script Unit} (h : Reaches first middle)
    (h' : Reaches middle last) : Reaches first last := by
  induction h with
  | refl _ => exact h'
  | emit _ ih => exact .emit (ih h')
  | ask read _ ih => exact .ask read (ih h')
  | park _ ih => exact .park (ih h')

/-- A script comes to its next stop. -/
theorem reaches_of_advance {script : Script Unit} {effects : List Effect} {stop : Stop}
    (h : script.advance = (effects, stop)) : Reaches script stop.rest := by
  rw [eq_of_advance h]
  clear h
  induction effects with
  | nil => exact .refl _
  | cons effect effects ih => exact .emit ih

/-- A script that is released goes on behind the stop. -/
theorem Reaches.released {script next : Script Unit} (h : Reaches script (.park next)) :
    Reaches script next :=
  h.trans (.park (.refl next))

/-- With an accepted reply the script goes on, and does not end with an error of the call. -/
theorem Reaches.answered {script : Script Unit} {prompt : Prompt}
    {next : prompt.kind.Answer → Script Unit} (h : Reaches script (.ask prompt next))
    {reply : Reply}
    (ha : prompt.accepts reply = true) : Reaches script (answer prompt next reply) := by
  obtain ⟨value, hread⟩ := (prompt.accepts_iff_read reply).1 ha
  rw [answer, hread]
  exact h.trans (.ask hread (.refl _))

end Script
end Encounter
