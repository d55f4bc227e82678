import Encounter.Proofs.Engine.Cases
import Encounter.Proofs.Session.Lookup

/-!
# Coming to rest

Every step towards quiet lowers `Engine.weight`, so the bound on the steps of `Engine.settle` is
never reached before the engine is quiet: `settle` takes steps until there is none left to take.
What a step preserves is preserved by `settle` (`Engine.settle_induction`).
-/

namespace Encounter
namespace Engine

open SessionTable (queued_of_find? queued_add queued_remove queued_setPhase queuedBeside_le)

/-- The number of tasks that can run. -/
def ready (engine : Engine) : Nat := engine.tasks.entries.countP fun entry => !entry.2.parked

theorem weight_eq (engine : Engine) :
    engine.weight = 2 * engine.ready + engine.notices.length + 3 * engine.table.queued := rfl

/-- Cutting off a session starts nothing. -/
private theorem weight_cancel_le (engine : Engine) (id : SessionId) (reason : CancelReason) :
    (engine.cancel id reason).weight ≤ engine.weight := by
  unfold cancel
  cases h : engine.table.find? id with
  | none => exact Nat.le_refl _
  | some session =>
    have hq := queuedBeside_le engine.table id
    have hr := engine.tasks.countP_erase_le id fun entry => !entry.2.parked
    simp only [weight_eq, ready, queued_remove, conclude, publish]
    omega

/-- Starting a session makes at most one task ready and moves its queue into the table. -/
private theorem weight_start_le (engine : Engine) (id : SessionId) (view : PlayerView)
    (trigger : Trigger) (script : NamedScript) (queue : List QueuedTrigger) :
    (engine.start id view trigger script queue).weight ≤
      engine.weight + 2 + 3 * queue.length := by
  have hq := queuedBeside_le engine.table id
  have hr := engine.tasks.countP_erase_le id fun entry => !entry.2.parked
  simp only [weight_eq, ready, table_start, queued_add]
  simp only [start, publish, Table.countP_insert]
  split <;> omega

/-- A trigger that leaves the queue counts for more than its task. -/
private theorem weight_finish_le (engine : Engine) (id : SessionId)
    (result : Except ScriptError Unit) :
    (engine.finish id result).weight ≤ engine.weight := by
  cases h : engine.table.find? id with
  | none =>
    exact Nat.le_of_eq (congrArg weight (finish_of_find?_eq_none h result))
  | some session =>
    have hconclude : (engine.conclude id session (.ofResult result)).weight +
        3 * session.queue.length = engine.weight := by
      simp only [weight_eq, ready, table_conclude, queued_remove, queued_of_find? h]
      simp only [conclude, publish]
      omega
    obtain ⟨first, rest, script, view, hq, -, -, he⟩ | ⟨-, he⟩ := finish_cases h result
    · rw [hq, List.length_cons] at hconclude
      have hstart := weight_start_le (engine.conclude id session (.ofResult result)) first.id view
        first.trigger script rest
      rw [he]
      omega
    · rw [he]
      omega

/-- Handling a notice starts nothing that was not counted. -/
theorem weight_receive_le (engine : Engine) (notice : Notice) :
    (engine.receive notice).weight ≤ engine.weight := by
  cases notice with
  | finished id result => exact engine.weight_finish_le id result
  | suspended id prompt next =>
    show (engine.suspend id prompt next).weight ≤ engine.weight
    cases h : engine.table.find? id with
    | none =>
      exact Nat.le_of_eq (congrArg weight (suspend_of_find?_eq_none h prompt next))
    | some session =>
      obtain ⟨-, he⟩ | ⟨-, he⟩ := suspend_cases h prompt next
      · rw [he, await]
        simp only [weight_eq, ready, table_publish, queued_setPhase]
        simp only [publish]
        omega
      · rw [he]
        exact engine.weight_cancel_le id .conversationOpen

/-- A task that runs has less before it afterwards. -/
theorem weight_poll_lt {engine : Engine} {id : SessionId} {task : Task}
    (hf : engine.tasks.find? id = some task) (hp : task.parked = false) :
    (engine.poll id task).weight < engine.weight := by
  have hr := Table.countP_of_find?_eq_some hf fun entry => !entry.2.parked
  simp only [hp, Bool.not_false, if_true] at hr
  cases h : task.script.advance with
  | mk effects stop =>
    cases stop with
    | ended result =>
      rw [poll_of_ended h]
      simp only [weight_eq, ready, afterEffects, List.length_append, List.length_singleton]
      omega
    | asking prompt next =>
      rw [poll_of_asking h]
      simp only [weight_eq, ready, afterEffects, List.length_append, List.length_singleton]
      omega
    | parked next =>
      rw [poll_of_parked h]
      simp only [weight_eq, ready, afterEffects, Table.countP_insert, Bool.not_true,
        Bool.false_eq_true, if_false]
      omega

/-- The task that is ready is one of the engine's, and not parked. -/
theorem of_readyTask?_eq_some {engine : Engine} {id : SessionId} {task : Task}
    (h : engine.readyTask? = some (id, task)) :
    engine.tasks.find? id = some task ∧ task.parked = false := by
  have hm := List.mem_of_find?_eq_some h
  have hp := List.find?_some h
  exact ⟨Table.find?_eq_some_iff.2 hm, by simpa using hp⟩

/-- A step handles the oldest notice or, without notices, runs a task that is ready. -/
theorem step?_cases {engine next : Engine} (h : engine.step? = some next) :
    (∃ notice rest, engine.notices = notice :: rest ∧
      next = { engine with notices := rest }.receive notice) ∨
    ∃ id task, engine.notices = [] ∧ engine.readyTask? = some (id, task) ∧
      next = engine.poll id task := by
  unfold step? at h
  cases hn : engine.notices with
  | cons notice rest =>
    rw [hn] at h
    exact .inl ⟨notice, rest, rfl, (Option.some.inj h).symm⟩
  | nil =>
    rw [hn] at h
    obtain ⟨⟨id, task⟩, hr, he⟩ := Option.map_eq_some_iff.1 h
    exact .inr ⟨id, task, rfl, hr, he.symm⟩

/-- Every step lowers the weight. -/
private theorem weight_lt_of_step? {engine next : Engine} (h : engine.step? = some next) :
    next.weight < engine.weight := by
  obtain ⟨notice, rest, hn, rfl⟩ | ⟨id, task, -, hr, rfl⟩ := step?_cases h
  · have hle := weight_receive_le { engine with notices := rest } notice
    simp only [weight_eq engine, hn, List.length_cons]
    simp only [weight_eq { engine with notices := rest }, ready] at hle
    simp only [ready]
    omega
  · obtain ⟨hf, hp⟩ := of_readyTask?_eq_some hr
    exact weight_poll_lt hf hp

/-- Bounds that are high enough all give the same. -/
private theorem stepUpTo_eq {n m : Nat} {engine : Engine} (hn : engine.weight ≤ n)
    (hm : engine.weight ≤ m) : stepUpTo n engine = stepUpTo m engine := by
  induction n generalizing m engine with
  | zero =>
    have hnone : engine.step? = none := by
      cases hs : engine.step? with
      | none => rfl
      | some next =>
        have := weight_lt_of_step? hs
        omega
    cases m with
    | zero => rfl
    | succ m => rw [stepUpTo, stepUpTo, hnone]
  | succ n ih =>
    cases hs : engine.step? with
    | none => cases m <;> simp only [stepUpTo, hs]
    | some next =>
      have hlt := weight_lt_of_step? hs
      obtain ⟨m, rfl⟩ : ∃ k, m = k + 1 := ⟨m - 1, by omega⟩
      simp only [stepUpTo, hs]
      exact ih (by omega) (by omega)

/-- A quiet engine stays as it is. -/
theorem settle_of_quiet {engine : Engine} (h : engine.step? = none) : engine.settle = engine := by
  unfold settle
  cases engine.weight with
  | zero => rfl
  | succ n => rw [stepUpTo, h]

/-- Coming to rest begins with the next step. -/
theorem settle_of_step? {engine next : Engine} (h : engine.step? = some next) :
    engine.settle = next.settle := by
  have hlt := weight_lt_of_step? h
  unfold settle
  rw [stepUpTo_eq (Nat.le_refl _) (Nat.le_succ engine.weight), stepUpTo, h]
  exact stepUpTo_eq (by omega) (Nat.le_refl _)

/-- What holds before and is kept by every step holds at rest. -/
theorem settle_induction {P : Engine → Prop} {engine : Engine} (h : P engine)
    (hstep : ∀ engine next, P engine → engine.step? = some next → P next) : P engine.settle := by
  have hsteps : ∀ n engine, P engine → P (stepUpTo n engine) := by
    intro n
    induction n with
    | zero => exact fun _ h => h
    | succ n ih =>
      intro engine h
      rw [stepUpTo]
      cases hs : engine.step? with
      | none => exact h
      | some next => exact ih next (hstep engine next h hs)
  exact hsteps _ _ h

/-- What holds of quiet engines and, if it holds after a step, before it holds of every engine. -/
theorem step_induction {P : Engine → Prop} (hquiet : ∀ engine, engine.step? = none → P engine)
    (hstep : ∀ engine next, engine.step? = some next → P next → P engine) (engine : Engine) :
    P engine := by
  induction hn : engine.weight using Nat.strongRecOn generalizing engine with
  | ind n ih =>
    subst hn
    cases hs : engine.step? with
    | none => exact hquiet engine hs
    | some next => exact hstep engine next hs (ih next.weight (weight_lt_of_step? hs) next rfl)

/-- The engine is quiet once it has come to rest. -/
theorem step?_settle (engine : Engine) : engine.settle.step? = none := by
  induction engine using step_induction with
  | hquiet engine hs => rw [settle_of_quiet hs, hs]
  | hstep engine next hs ih => rw [settle_of_step? hs, ih]

/-- Quiet means that no notice waits and every task is parked. -/
theorem step?_eq_none_iff {engine : Engine} :
    engine.step? = none ↔
      engine.notices = [] ∧
        ∀ id task, engine.tasks.find? id = some task → task.parked = true := by
  unfold step?
  cases hn : engine.notices with
  | cons notice rest => simp
  | nil =>
    rw [Option.map_eq_none_iff, readyTask?, List.find?_eq_none]
    constructor
    · intro h
      refine ⟨rfl, ?_⟩
      intro id task hf
      simpa using h (id, task) (Table.find?_eq_some_iff.1 hf)
    · rintro ⟨-, h⟩ ⟨id, task⟩ hm
      simp [h id task (Table.find?_eq_some_iff.2 hm)]

/-- Queueing a trigger leaves a quiet engine quiet. -/
theorem settle_enqueue_of_quiet {engine : Engine} (h : engine.step? = none) (id : SessionId)
    (trigger : Trigger) :
    (engine.enqueue id trigger).settle = engine.enqueue id trigger := by
  have hquiet := step?_eq_none_iff.1 h
  exact settle_of_quiet (step?_eq_none_iff.2 hquiet)

end Engine
end Encounter
