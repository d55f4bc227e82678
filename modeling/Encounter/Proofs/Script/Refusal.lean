import Encounter.Proofs.Script.Reach

/-!
# The reply that ends a script

Each prompt takes the reply of its own place. The first one that gets no reply, or none that it
accepts, is the last entry of the transcript and tells the error of the run
(`Script.replay_of_failure?`). A script that does not give up by itself succeeds otherwise.
-/

namespace Encounter

/-- The prompt that is shown. -/
def TranscriptEntry.prompt? : TranscriptEntry → Option Prompt
  | .prompt shown => some shown
  | .effect _ => none

/-- The effect that is asked for. -/
def TranscriptEntry.effect? : TranscriptEntry → Option Effect
  | .prompt _ => none
  | .effect asked => some asked

namespace Transcript

variable {α : Type}

/-- The prompts that were shown, in order. -/
def prompts (t : Transcript α) : List Prompt := t.entries.filterMap TranscriptEntry.prompt?

/-- The effects that were asked for, in order. -/
def effects (t : Transcript α) : List Effect := t.entries.filterMap TranscriptEntry.effect?

@[simp] theorem prompts_cons_prompt (prompt : Prompt) (t : Transcript α) :
    (t.cons (.prompt prompt)).prompts = prompt :: t.prompts := rfl

/-- What comes last stays last. -/
private theorem getLast?_entries_cons {t : Transcript α} {last : TranscriptEntry}
    (h : t.entries.getLast? = some last) (entry : TranscriptEntry) :
    (t.cons entry).entries.getLast? = some last := by
  rw [cons, List.getLast?_cons, h]
  rfl

end Transcript

namespace Prompt

/-- The error for a reply that the prompt does not accept: a menu names the selection that it does
not offer, otherwise kind and reply do not go together. -/
def refusal (prompt : Prompt) : Reply → ScriptError
  | .selection index =>
    if prompt.kind = .askMenu then .selectionOutOfRange index
    else .unexpectedReply prompt.kind (.selection index)
  | reply => .unexpectedReply prompt.kind reply

/-- The error that a script ends with at the prompt, if any: nobody replies, or the reply is not
accepted. -/
def failure? (prompt : Prompt) : Option Reply → Option ScriptError
  | none => some (.cancelled .disconnected)
  | some reply => if prompt.accepts reply then none else some (prompt.refusal reply)

/-- A reply is read, or refused with the error that fits it. -/
private theorem read_cases (prompt : Prompt) (reply : Reply) :
    (∃ value, prompt.read reply = .ok value ∧ prompt.failure? (some reply) = none) ∨
      prompt.read reply = .error (prompt.refusal reply) ∧
        prompt.failure? (some reply) = some (prompt.refusal reply) := by
  cases ha : prompt.accepts reply with
  | true =>
    obtain ⟨value, hread⟩ := (prompt.accepts_iff_read reply).1 ha
    exact .inl ⟨value, hread, by simp [failure?, ha]⟩
  | false =>
    refine .inr ⟨?_, by simp [failure?, ha]⟩
    obtain ⟨kind, text⟩ := prompt
    cases kind <;> cases reply
    case askMenu.selection index => simp [read, ha, refusal]
    case sayNext.dismissed | say.dismissed | askYesNo.answer => simp [accepts] at ha
    all_goals rfl

end Prompt

namespace Script

variable {α : Type}

/-- Whatever is answered, the script does not end with an error by itself. -/
def NeverFails : Script α → Prop
  | done _ => True
  | fail _ => False
  | emit _ next => next.NeverFails
  | ask _ next => ∀ answer, (next answer).NeverFails
  | park next => next.NeverFails

/-- A prompt is at the end of the run, or it got a reply that it could read. -/
private theorem replay_ask_cases (prompt : Prompt) (next : prompt.kind.Answer → Script α)
    (replies : List Reply) :
    (∃ reply rest value, replies = reply :: rest ∧ prompt.read reply = .ok value ∧
      prompt.failure? (some reply) = none ∧
      (ask prompt next).replay replies = ((next value).replay rest).cons (.prompt prompt)) ∨
    ∃ error, prompt.failure? replies.head? = some error ∧
      (ask prompt next).replay replies = ⟨[.prompt prompt], .error error⟩ := by
  cases replies with
  | nil => exact .inr ⟨.cancelled .disconnected, rfl, rfl⟩
  | cons reply rest =>
    obtain ⟨value, hread, hfits⟩ | ⟨hread, hfails⟩ := prompt.read_cases reply
    · exact .inl ⟨reply, rest, value, rfl, hread, hfits, by rw [replay, hread]⟩
    · exact .inr ⟨_, hfails, by rw [replay, hread]⟩

/-- A prompt that accepts one reply only is answered so, or it is at the end of the run. -/
theorem replay_ask_of_sole (prompt : Prompt) (next : prompt.kind.Answer → Script α)
    {sole : Reply} {value : prompt.kind.Answer} (hread : prompt.read sole = .ok value)
    (hsole : ∀ reply, prompt.accepts reply = true → reply = sole) (replies : List Reply) :
    (∃ rest, replies = sole :: rest ∧
      (ask prompt next).replay replies = ((next value).replay rest).cons (.prompt prompt)) ∨
    ¬ [sole] <+: replies ∧
      ∃ error, (ask prompt next).replay replies = ⟨[.prompt prompt], .error error⟩ := by
  obtain ⟨reply, rest, found, rfl, hfound, -, hreplay⟩ | ⟨error, hfails, hreplay⟩ :=
    replay_ask_cases prompt next replies
  · obtain rfl := hsole reply ((prompt.accepts_iff_read reply).2 ⟨found, hfound⟩)
    obtain rfl : value = found := Except.ok.inj (hread.symm.trans hfound)
    exact .inl ⟨rest, rfl, hreplay⟩
  · refine .inr ⟨?_, error, hreplay⟩
    rintro ⟨rest, rfl⟩
    have haccepts := (prompt.accepts_iff_read sole).2 ⟨value, hread⟩
    rw [List.singleton_append, List.head?_cons, Prompt.failure?, if_pos haccepts] at hfails
    cases hfails

/-- The first prompt without a fitting reply is the last entry, and the run ends with its error. -/
theorem replay_of_failure? {script : Script α} {replies : List Reply} {i : Nat} {prompt : Prompt}
    {error : ScriptError} (hshown : (script.replay replies).prompts[i]? = some prompt)
    (hfails : prompt.failure? replies[i]? = some error) :
    (script.replay replies).entries.getLast? = some (.prompt prompt) ∧
      (script.replay replies).prompts.length = i + 1 ∧
      (script.replay replies).result = .error error := by
  induction script generalizing replies i with
  | done value => cases hshown
  | fail error => cases hshown
  | emit effect next ih =>
    obtain ⟨hlast, hlength, hresult⟩ := ih hshown hfails
    exact ⟨Transcript.getLast?_entries_cons hlast _, hlength, hresult⟩
  | park next ih => exact ih hshown hfails
  | ask shown next ih =>
    obtain ⟨reply, rest, value, rfl, -, hfits, hreplay⟩ | ⟨found, hends, hreplay⟩ :=
      replay_ask_cases shown next replies
    · rw [hreplay, Transcript.prompts_cons_prompt] at hshown ⊢
      cases i with
      | zero =>
        obtain rfl := Option.some.inj hshown
        rw [List.getElem?_cons_zero, hfits] at hfails
        cases hfails
      | succ i =>
        obtain ⟨hlast, hlength, hresult⟩ := ih value hshown hfails
        exact ⟨Transcript.getLast?_entries_cons hlast _, congrArg (· + 1) hlength, hresult⟩
    · rw [hreplay] at hshown ⊢
      cases i with
      | zero =>
        obtain rfl := Option.some.inj hshown
        rw [← List.head?_eq_getElem?, hends] at hfails
        obtain rfl := Option.some.inj hfails
        exact ⟨rfl, rfl, rfl⟩
      | succ i => cases hshown

/-- If every prompt gets a fitting reply, a script that does not fail by itself succeeds. -/
theorem NeverFails.result_ok {script : Script α} (h : script.NeverFails) {replies : List Reply}
    (hfits : ∀ (i : Nat) prompt, (script.replay replies).prompts[i]? = some prompt →
      prompt.failure? replies[i]? = none) :
    ∃ value, (script.replay replies).result = .ok value := by
  induction script generalizing replies with
  | done value => exact ⟨value, rfl⟩
  | fail error => exact h.elim
  | emit effect next ih => exact ih h hfits
  | park next ih => exact ih h hfits
  | ask shown next ih =>
    obtain ⟨reply, rest, value, rfl, -, -, hreplay⟩ | ⟨error, hends, hreplay⟩ :=
      replay_ask_cases shown next replies
    · rw [hreplay] at hfits ⊢
      exact ih value (h value) fun i prompt hshown => hfits (i + 1) prompt hshown
    · rw [hreplay] at hfits
      have hnone := hfits 0 shown rfl
      rw [← List.head?_eq_getElem?, hends] at hnone
      cases hnone

end Script
end Encounter
