import Encounter.Script.Advance
import Encounter.Script.Replay

/-!
# Stops and transcripts

The transcript of a script against a list of replies, taken apart at the first stop: the effects up
to it, then the prompt, then what follows on the first reply. A script that never parks has two
kinds of stops: it ends, or it asks.
-/

namespace Encounter

/-- What is left to do at a stop. -/
def Stop.rest : Stop → Script Unit
  | ended (.ok value) => .done value
  | ended (.error error) => .fail error
  | asking prompt next => .ask prompt next
  | parked next => .park next

namespace Script

/-- Whatever is answered, the script does not wait to be released. -/
def NeverParks {α : Type} : Script α → Prop
  | done _ => True
  | fail _ => True
  | emit _ next => next.NeverParks
  | ask _ next => ∀ answer, (next answer).NeverParks
  | park _ => False

/-- Does the replay ask for a reply when none is left? -/
def asksBeyond {α : Type} : Script α → List Reply → Bool
  | done _, _ => false
  | fail _, _ => false
  | emit _ next, replies => next.asksBeyond replies
  | ask _ _, [] => true
  | ask prompt next, reply :: replies =>
    match prompt.read reply with
    | .ok value => (next value).asksBeyond replies
    | .error _ => false
  | park next, replies => next.asksBeyond replies

/-- Those of the replies that fit the prompts: each prompt takes the first one that it accepts, and
a script that ended takes none. -/
def heard (script : Script Unit) : List Reply → List Reply
  | [] => []
  | reply :: replies =>
    match script.advance.2 with
    | .asking prompt next =>
      if prompt.accepts reply then reply :: heard (answer prompt next reply) replies
      else heard script replies
    | _ => heard script replies

theorem NeverParks.answer {prompt : Prompt} {next : prompt.kind.Answer → Script Unit}
    (h : ∀ answer, (next answer).NeverParks) (reply : Reply) :
    (Script.answer prompt next reply).NeverParks := by
  unfold Script.answer
  split
  · next value _ => exact h value
  · trivial

/-- A prompt and its reply come before what the reply leads to. -/
private theorem replay_ask_cons (prompt : Prompt) (next : prompt.kind.Answer → Script Unit)
    (reply : Reply) (replies : List Reply) :
    (ask prompt next).replay (reply :: replies) =
      ((answer prompt next reply).replay replies).cons (.prompt prompt) := by
  rw [replay, answer]
  cases prompt.read reply with
  | ok value => rfl
  | error error => rfl

private theorem asksBeyond_ask_cons (prompt : Prompt) (next : prompt.kind.Answer → Script Unit)
    (reply : Reply) (replies : List Reply) :
    (ask prompt next).asksBeyond (reply :: replies) =
      (answer prompt next reply).asksBeyond replies := by
  rw [asksBeyond, answer]
  cases prompt.read reply with
  | ok value => rfl
  | error error => rfl

variable {script : Script Unit} {effects : List Effect}

/-- A script has its effects up to its first stop, and then does what is left at that stop. -/
theorem eq_of_advance {stop : Stop} (h : script.advance = (effects, stop)) :
    script = effects.foldr emit stop.rest := by
  induction script generalizing effects with
  | done value =>
    cases h
    rfl
  | fail error =>
    cases h
    rfl
  | emit effect next ih =>
    rw [advance] at h
    obtain ⟨rfl, hstop⟩ := Prod.mk.inj h
    rw [List.foldr_cons, ← ih (Prod.ext rfl hstop)]
  | ask prompt next _ =>
    cases h
    rfl
  | park next _ =>
    cases h
    rfl

private theorem replay_foldr_emit (effects : List Effect) (script : Script Unit)
    (replies : List Reply) :
    (effects.foldr emit script).replay replies =
      ⟨effects.map .effect ++ (script.replay replies).entries, (script.replay replies).result⟩ := by
  induction effects with
  | nil => rfl
  | cons effect effects ih =>
    rw [List.foldr_cons, replay, ih]
    rfl

private theorem asksBeyond_foldr_emit (effects : List Effect) (script : Script Unit)
    (replies : List Reply) :
    (effects.foldr emit script).asksBeyond replies = script.asksBeyond replies := by
  induction effects with
  | nil => rfl
  | cons effect effects ih => rw [List.foldr_cons, asksBeyond, ih]

theorem neverParks_foldr_emit (effects : List Effect) (script : Script Unit) :
    (effects.foldr emit script).NeverParks ↔ script.NeverParks := by
  induction effects with
  | nil => exact Iff.rfl
  | cons effect effects ih => rw [List.foldr_cons, NeverParks, ih]

/-- A script that never parks ends or asks. -/
theorem NeverParks.advance_cases (hs : script.NeverParks) :
    (∃ effects result, script.advance = (effects, .ended result)) ∨
      ∃ effects prompt next, script.advance = (effects, .asking prompt next) := by
  obtain ⟨effects, stop, h⟩ : ∃ effects stop, script.advance = (effects, stop) := ⟨_, _, rfl⟩
  cases stop with
  | ended result => exact .inl ⟨effects, result, h⟩
  | asking prompt next => exact .inr ⟨effects, prompt, next, h⟩
  | parked next =>
    rw [eq_of_advance h, neverParks_foldr_emit] at hs
    exact absurd hs id

/-! ### A script that ends -/

section Ended

variable {result : Except ScriptError Unit}

/-- Without a prompt the transcript is the same whatever the replies. -/
theorem replay_of_ended (h : script.advance = (effects, .ended result)) (replies : List Reply) :
    script.replay replies = ⟨effects.map .effect, result⟩ := by
  rw [eq_of_advance h, replay_foldr_emit]
  cases result with
  | ok value => rw [Stop.rest, replay, List.append_nil]
  | error error => rw [Stop.rest, replay, List.append_nil]

theorem asksBeyond_of_ended (h : script.advance = (effects, .ended result))
    (replies : List Reply) : script.asksBeyond replies = false := by
  rw [eq_of_advance h, asksBeyond_foldr_emit]
  cases result <;> rfl

theorem heard_of_ended (h : script.advance = (effects, .ended result)) (replies : List Reply) :
    script.heard replies = [] := by
  induction replies with
  | nil => rfl
  | cons reply replies ih =>
    rw [heard, h]
    exact ih

end Ended

/-! ### A script that asks -/

section Asking

variable {prompt : Prompt} {next : prompt.kind.Answer → Script Unit}

/-- Without replies the transcript breaks off at the prompt. -/
theorem replay_nil_of_asking (h : script.advance = (effects, .asking prompt next)) :
    script.replay [] =
      ⟨effects.map .effect ++ [.prompt prompt], .error (.cancelled .disconnected)⟩ := by
  rw [eq_of_advance h, replay_foldr_emit]
  rfl

/-- With a reply the transcript goes on behind the prompt. -/
theorem replay_cons_of_asking (h : script.advance = (effects, .asking prompt next)) (reply : Reply)
    (replies : List Reply) :
    script.replay (reply :: replies) =
      ⟨effects.map .effect ++
          .prompt prompt :: ((answer prompt next reply).replay replies).entries,
        ((answer prompt next reply).replay replies).result⟩ := by
  rw [eq_of_advance h, replay_foldr_emit, Stop.rest, replay_ask_cons]
  rfl

theorem asksBeyond_nil_of_asking (h : script.advance = (effects, .asking prompt next)) :
    script.asksBeyond [] = true := by
  rw [eq_of_advance h, asksBeyond_foldr_emit]
  rfl

theorem asksBeyond_cons_of_asking (h : script.advance = (effects, .asking prompt next))
    (reply : Reply) (replies : List Reply) :
    script.asksBeyond (reply :: replies) = (answer prompt next reply).asksBeyond replies := by
  rw [eq_of_advance h, asksBeyond_foldr_emit, Stop.rest, asksBeyond_ask_cons]

/-- The prompt takes the reply if it accepts it; else it goes on asking. -/
theorem heard_cons_of_asking (h : script.advance = (effects, .asking prompt next)) (reply : Reply)
    (replies : List Reply) :
    script.heard (reply :: replies) =
      if prompt.accepts reply then reply :: (answer prompt next reply).heard replies
      else script.heard replies := by
  rw [heard, h]

theorem NeverParks.answer_of_asking (hs : script.NeverParks)
    (h : script.advance = (effects, .asking prompt next)) (reply : Reply) :
    (Script.answer prompt next reply).NeverParks := by
  rw [eq_of_advance h, neverParks_foldr_emit] at hs
  exact NeverParks.answer hs reply

end Asking

end Script
end Encounter
