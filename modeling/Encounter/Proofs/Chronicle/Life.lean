import Encounter.Proofs.Chronicle.Basic

/-!
# The life of a session

What a chronicle may say about one session. While the session is active its notes form a `Tale`: a
start, then effects and prompts, each prompt followed by a reply before anything else happens. An
end closes the tale. `LifeStory` states what the events alone show of this, and `OpenPrompt` which
prompt still wants an answer.
-/

namespace Encounter

/-- What was noted down about a session. -/
def notesOf (id : SessionId) (notes : List Entry) : List Entry :=
  notes.filter fun entry => entry.session = id

/-- Prompts and effects of one session, with the same player and trigger throughout. -/
def Inner (subject : Subject) (events : List Event) : Prop :=
  ∀ event ∈ events, event.subject = subject ∧ event.topic ≠ .session

/-- The events of a session: nothing, a start, or a start and an end; prompts and effects come after
the start and before the end, and all of them have the same player and trigger. -/
inductive LifeStory (id : SessionId) : List Event → Prop where
  | unborn : LifeStory id []
  | active {subject : Subject} {between : List Event} (session : subject.session = id)
      (inner : Inner subject between) : LifeStory id (⟨subject, .started⟩ :: between)
  | ended {subject : Subject} {between : List Event} {outcome : Outcome}
      (session : subject.session = id) (inner : Inner subject between) :
      LifeStory id (⟨subject, .started⟩ :: (between ++ [⟨subject, .ended outcome⟩]))

/-- Does the note show a prompt or answer one? -/
def Entry.IsTurn : Entry → Prop
  | .event e => e.topic = .dialogue
  | .replied _ => True

/-- The prompt was shown, and neither another prompt nor an accepted reply came later. -/
def Unanswered (notes : List Entry) (prompt : Prompt) : Prop :=
  ∃ before subject after, notes = before ++ .event ⟨subject, .prompted prompt⟩ :: after ∧
    ∀ entry ∈ after, ¬ entry.IsTurn

/-- The prompt is the latest of the session, and no reply to it was accepted. -/
def OpenPrompt (notes : List Entry) (id : SessionId) (prompt : Prompt) : Prop :=
  Unanswered (notesOf id notes) prompt

/-- The notes of an active session, with the prompt that it waits on. -/
inductive Tale (subject : Subject) : Option Prompt → List Entry → Prop where
  | started : Tale subject none [.event ⟨subject, .started⟩]
  | effected {notes : List Entry} (effect : Effect) (before : Tale subject none notes) :
      Tale subject none (notes ++ [.event ⟨subject, .effected effect⟩])
  | prompted {notes : List Entry} (prompt : Prompt) (before : Tale subject none notes) :
      Tale subject (some prompt) (notes ++ [.event ⟨subject, .prompted prompt⟩])
  | replied {notes : List Entry} {prompt : Prompt} (before : Tale subject (some prompt) notes) :
      Tale subject none (notes ++ [.replied subject.session])

/-- The notes of a session that ended. -/
inductive Over (id : SessionId) : List Entry → Prop where
  | ended {subject : Subject} {prompt? : Option Prompt} {notes : List Entry} (outcome : Outcome)
      (session : subject.session = id) (before : Tale subject prompt? notes) :
      Over id (notes ++ [.event ⟨subject, .ended outcome⟩])

/-- The life of a session begins with its start. -/
theorem LifeStory.start_mem {id : SessionId} {events : List Event} (h : LifeStory id events)
    {event : Event} (hm : event ∈ events) : ⟨event.subject, .started⟩ ∈ events := by
  cases h with
  | unborn => cases hm
  | active session inner =>
    rcases List.mem_cons.1 hm with rfl | hb
    · exact List.mem_cons_self
    · rw [(inner event hb).1]
      exact List.mem_cons_self
  | ended session inner =>
    rcases List.mem_cons.1 hm with rfl | hm
    · exact List.mem_cons_self
    · rcases List.mem_append.1 hm with hb | hlast
      · rw [(inner event hb).1]
        exact List.mem_cons_self
      · rw [List.mem_singleton.1 hlast]
        exact List.mem_cons_self

theorem notesOf_append (id : SessionId) (notes others : List Entry) :
    notesOf id (notes ++ others) = notesOf id notes ++ notesOf id others :=
  List.filter_append _ _

/-- Notes of other sessions say nothing. -/
theorem notesOf_eq_nil {id : SessionId} {notes : List Entry}
    (h : ∀ entry ∈ notes, entry.session ≠ id) : notesOf id notes = [] := by
  unfold notesOf
  rw [List.filter_eq_nil_iff]
  intro entry hm
  simpa using h entry hm

/-- Notes of one session are all its notes. -/
theorem notesOf_eq_self {id : SessionId} {notes : List Entry}
    (h : ∀ entry ∈ notes, entry.session = id) : notesOf id notes = notes := by
  unfold notesOf
  rw [List.filter_eq_self]
  intro entry hm
  simpa using h entry hm

/-- Events of a session are noted down in its notes. -/
theorem filterMap_notesOf (id : SessionId) (notes : List Entry) :
    (notesOf id notes).filterMap Entry.event? =
      (notes.filterMap Entry.event?).filter fun event => event.session = id := by
  unfold notesOf
  rw [List.filterMap_filter, List.filter_filterMap]
  congr 1
  funext entry
  cases entry with
  | event e =>
    by_cases h : e.session = id
    · simp [Entry.session, Entry.event?, Option.filter, h]
    · simp [Entry.session, Entry.event?, Option.filter, h]
  | replied other => simp [Entry.event?]

/-- A running session may have several effects on its way. -/
theorem Tale.effects {subject : Subject} {notes : List Entry} (h : Tale subject none notes)
    (effects : List Effect) :
    Tale subject none
      (notes ++ effects.map fun effect => .event ⟨subject, .effected effect⟩) := by
  induction effects generalizing notes with
  | nil =>
    rw [List.map_nil, List.append_nil]
    exact h
  | cons effect effects ih =>
    rw [List.map_cons, List.append_cons]
    exact ih (h.effected effect)

/-- The last note tells whether a prompt is unanswered, unless it is no turn. -/
private theorem unanswered_append {notes : List Entry} {entry : Entry} {prompt : Prompt} :
    Unanswered (notes ++ [entry]) prompt ↔
      (∃ subject, entry = .event ⟨subject, .prompted prompt⟩) ∨
        (¬ entry.IsTurn ∧ Unanswered notes prompt) := by
  constructor
  · rintro ⟨before, subject, after, he, hafter⟩
    rcases List.eq_nil_or_concat after with rfl | ⟨others, last, rfl⟩
    · exact .inl ⟨subject, (List.append_inj' he rfl).2 |> List.cons.inj |>.1⟩
    · rw [List.concat_eq_append, ← List.cons_append, ← List.append_assoc] at he
      obtain ⟨hnotes, hlast⟩ := List.append_inj' he rfl
      cases hlast
      refine .inr ⟨hafter entry (by simp), before, subject, others, hnotes, ?_⟩
      intro other ho
      exact hafter other (by simp [ho])
  · rintro (⟨subject, rfl⟩ | ⟨hturn, before, subject, after, rfl, hafter⟩)
    · exact ⟨notes, subject, [], rfl, fun _ h => absurd h List.not_mem_nil⟩
    · refine ⟨before, subject, after ++ [entry], by simp, ?_⟩
      intro other ho
      rcases List.mem_append.1 ho with ho | ho
      · exact hafter other ho
      · rw [List.mem_singleton.1 ho]
        exact hturn

/-- The prompt that an active session waits on is the one that is unanswered. -/
theorem Tale.prompt_iff {subject : Subject} {prompt? : Option Prompt} {notes : List Entry}
    (h : Tale subject prompt? notes) (prompt : Prompt) :
    prompt? = some prompt ↔ Unanswered notes prompt := by
  induction h with
  | started =>
    refine ⟨fun he => absurd he (by simp), ?_⟩
    rintro ⟨before, other, after, he, -⟩
    rcases List.append_eq_cons_iff.1 he.symm with ⟨-, h⟩ | ⟨rest, -, h⟩
    · cases h
    · cases rest <;> cases h
  | effected effect before ih =>
    rw [unanswered_append, ih]
    simp [Entry.IsTurn, Event.topic]
  | prompted shown before ih =>
    rw [unanswered_append]
    simp [Entry.IsTurn, Event.topic]
  | replied before ih =>
    rw [unanswered_append]
    simp [Entry.IsTurn]

/-- A prompt or an effect behind the start may be followed by another one. -/
private theorem inner_append {subject : Subject} {notes : List Entry} {between : List Event}
    (he : notes.filterMap Entry.event? = ⟨subject, .started⟩ :: between)
    (hi : Inner subject between) (happening : Happening)
    (ht : (⟨subject, happening⟩ : Event).topic ≠ .session) :
    ∃ between, (notes ++ [Entry.event ⟨subject, happening⟩]).filterMap Entry.event? =
      ⟨subject, .started⟩ :: between ∧ Inner subject between := by
  refine ⟨between ++ [⟨subject, happening⟩], ?_, ?_⟩
  · rw [List.filterMap_append, he]
    rfl
  · intro event hm
    rcases List.mem_append.1 hm with hm | hm
    · exact hi event hm
    · rw [List.mem_singleton.1 hm]
      exact ⟨rfl, ht⟩

/-- The events of an active session are a start and what lies behind it. -/
theorem Tale.events {subject : Subject} {prompt? : Option Prompt} {notes : List Entry}
    (h : Tale subject prompt? notes) :
    ∃ between, notes.filterMap Entry.event? = ⟨subject, .started⟩ :: between ∧
      Inner subject between := by
  induction h with
  | started => exact ⟨[], rfl, fun _ h => absurd h List.not_mem_nil⟩
  | effected effect before ih =>
    obtain ⟨between, he, hi⟩ := ih
    exact inner_append he hi (.effected effect) (by simp [Event.topic])
  | prompted prompt before ih =>
    obtain ⟨between, he, hi⟩ := ih
    exact inner_append he hi (.prompted prompt) (by simp [Event.topic])
  | replied before ih =>
    obtain ⟨between, he, hi⟩ := ih
    refine ⟨between, ?_, hi⟩
    rw [List.filterMap_append, he]
    exact List.append_nil _

/-- The events of a session that ended are a whole life. -/
theorem Over.events {id : SessionId} {notes : List Entry} (h : Over id notes) :
    ∃ subject between outcome, subject.session = id ∧ Inner subject between ∧
      notes.filterMap Entry.event? =
        ⟨subject, .started⟩ :: (between ++ [⟨subject, .ended outcome⟩]) := by
  cases h with
  | @ended subject prompt? notes outcome hs before =>
    obtain ⟨between, he, hi⟩ := before.events
    refine ⟨subject, between, outcome, hs, hi, ?_⟩
    rw [List.filterMap_append, he]
    rfl

end Encounter
