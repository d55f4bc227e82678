import Encounter.Script.Basic

/-!
# Sessions

A session is one run of a script for a player. It runs, or it is suspended on a prompt until the
player answers. Triggers of the same thing by the same player wait in its queue while it runs.
-/

namespace Encounter

/-- A player touching one thing. -/
structure Slot where
  player : PlayerId
  key : TriggerKey
  deriving DecidableEq, Repr

namespace Slot

/-- Place of a slot in the order of slots: by player, then by key. -/
def rank (slot : Slot) : Nat := slot.player.val.toNat * (2 * UInt32.size) + slot.key.rank

/-- There is room for two words in the ranks of keys. -/
theorem rank_key_lt (key : TriggerKey) : key.rank < 2 * UInt32.size := by
  obtain ⟨kind, id⟩ := key
  have := id.toNat_lt
  cases kind <;> simp only [TriggerKey.rank, UInt32.size] <;> omega

/-- Slots of equal rank are equal. -/
theorem rank_injective (a b : Slot) (h : rank a = rank b) : a = b := by
  obtain ⟨⟨pa⟩, ka⟩ := a
  obtain ⟨⟨pb⟩, kb⟩ := b
  have ha := rank_key_lt ka
  have hb := rank_key_lt kb
  simp only [rank, UInt32.size] at h ha hb
  have hp : pa = pb := UInt32.toNat_inj.1 (by omega)
  have hk : ka = kb := TriggerKey.rank_injective ka kb (by omega)
  rw [hp, hk]

instance : Ord Slot := ⟨compareOn rank⟩
instance : Std.TransOrd Slot := inferInstanceAs (Std.TransCmp (compareOn rank))
instance : Std.LawfulEqOrd Slot := lawfulEqCmp_compareOn rank_injective

end Slot

/-- A trigger that waits for its turn, with the number that its session will have. -/
structure QueuedTrigger where
  id : SessionId
  trigger : Trigger
  deriving DecidableEq, Repr

/-- What a session is doing. -/
inductive Phase where
  | running
  /-- Waits for the answer to a prompt, to go on with it. -/
  | suspended (prompt : Prompt) (resume : prompt.kind.Answer → Script Unit)

/-- The prompt that a phase waits on. -/
def Phase.prompt? : Phase → Option Prompt
  | running => none
  | suspended prompt _ => some prompt

/-- One run of a script for a player. -/
structure Session where
  player : PlayerId
  trigger : Trigger
  phase : Phase
  queue : List QueuedTrigger

namespace Session

/-- The slot that a session occupies. -/
def slot (session : Session) : Slot := ⟨session.player, session.trigger.key⟩

/-- Is the session waiting for an answer? -/
def isSuspended (session : Session) : Bool := session.phase.prompt?.isSome

end Session

/-- What clients see of a session; a session without a prompt is running. -/
structure SessionInfo where
  id : SessionId
  player : PlayerId
  trigger : Trigger
  prompt : Option Prompt
  deriving DecidableEq, Repr

/-- The state of a session in one word. -/
def SessionInfo.stateName (info : SessionInfo) : String :=
  match info.prompt with
  | none => "running"
  | some prompt => prompt.kind.name

instance : ToString SessionInfo :=
  ⟨fun info => toString info.id ++ " " ++ toString info.player ++ " " ++ toString info.trigger ++
    " [" ++ info.stateName ++ "]"⟩

end Encounter
