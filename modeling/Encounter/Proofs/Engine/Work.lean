import Encounter.Proofs.Engine.Settle
import Mathlib.Order.WellFounded

/-!
# The engine at work

Left to itself, the engine handles its notices and runs its tasks, which take turns in any order and at
any call of a script. No order lets it work for ever: a notice that is handled and a task that stops
lower `Engine.weight`, since no work makes a queue longer; a call of a script leaves the weight as it
is, but the script has fewer calls before its next stop (`wellFounded_works`). Coming to rest is one
order of the work (`worksTo_settle`).
-/

namespace Encounter
namespace Engine

variable {engine next : Engine}

/-- A task carries out the effect that its script asks for, and no more. -/
def emit (engine : Engine) (id : SessionId) (origin : Origin) (effect : Effect)
    (rest : Script Unit) : Engine :=
  { engine.carryOut id origin effect with tasks := engine.tasks.insert id ⟨origin, rest, false⟩ }

/-- One piece of work. -/
inductive Works : Engine → Engine → Prop where
  /-- The oldest notice is handled. -/
  | receives {engine : Engine} {notice : Notice} {rest : List Notice}
      (notices : engine.notices = notice :: rest) :
      Works engine ({ engine with notices := rest }.receive notice)
  /-- A script makes a call that does not stop its task. -/
  | emits {engine : Engine} {id : SessionId} {origin : Origin} {effect : Effect} {rest : Script Unit}
      (found : engine.tasks.find? id = some ⟨origin, .emit effect rest, false⟩) :
      Works engine (engine.emit id origin effect rest)
  /-- A task stops: its script ends, asks or parks. -/
  | stops {engine : Engine} {id : SessionId} {task : Task}
      (found : engine.tasks.find? id = some task) (ready : task.parked = false)
      (last : task.script.advance.1 = []) :
      Works engine (engine.poll id task)

/-- Some work leads from one state to the other. -/
abbrev WorksTo : Engine → Engine → Prop := Relation.ReflTransGen Works

/-- The number of calls that all tasks together have left before they stop. -/
def callsLeft (engine : Engine) : Nat :=
  (engine.tasks.entries.flatMap fun entry => entry.2.script.advance.1).length

/-- A call that is made is one less that is left. -/
private theorem callsLeft_emit {id : SessionId} {origin : Origin} {effect : Effect}
    {rest : Script Unit} (h : engine.tasks.find? id = some ⟨origin, .emit effect rest, false⟩) :
    engine.callsLeft = (engine.emit id origin effect rest).callsLeft + 1 := by
  have hbefore := (Table.perm_of_find?_eq_some h).flatMap_right
    fun entry => entry.2.script.advance.1
  have hafter := (Table.perm_insert engine.tasks id ⟨origin, rest, false⟩).flatMap_right
    fun entry => entry.2.script.advance.1
  rw [callsLeft, callsLeft, emit, hbefore.length_eq, hafter.length_eq]
  simp only [List.flatMap_cons, Script.advance, List.cons_append, List.length_cons]

/-- A call leaves as many tasks, notices and queued triggers as before. -/
private theorem weight_emit {id : SessionId} {origin : Origin} {effect : Effect}
    {rest : Script Unit} (h : engine.tasks.find? id = some ⟨origin, .emit effect rest, false⟩) :
    (engine.emit id origin effect rest).weight = engine.weight := by
  have hready := Table.countP_of_find?_eq_some h fun entry => !entry.2.parked
  simp only [weight_eq, ready, emit, carryOut, publish, Table.countP_insert, hready]

/-- Work lowers the weight or, at the same weight, the number of calls that are left. -/
theorem Works.lt (h : Works engine next) :
    Prod.Lex (· < ·) (· < ·) (next.weight, next.callsLeft) (engine.weight, engine.callsLeft) := by
  cases h with
  | @receives notice rest notices =>
    have hle := weight_receive_le { engine with notices := rest } notice
    have hlt : weight { engine with notices := rest } < engine.weight := by
      simp only [weight_eq, ready, notices, List.length_cons]
      omega
    exact .left _ _ (Nat.lt_of_le_of_lt hle hlt)
  | emits found =>
    rw [weight_emit found]
    exact .right _ (callsLeft_emit found ▸ Nat.lt_succ_self _)
  | stops found ready last => exact .left _ _ (weight_poll_lt found ready)

/-- There is no end of states each of which leads to the one before by some work. -/
theorem wellFounded_works : WellFounded fun next engine => Works engine next :=
  Subrelation.wf Works.lt
    (InvImage.wf (fun engine : Engine => (engine.weight, engine.callsLeft))
      (Prod.lex Nat.lt_wfRel Nat.lt_wfRel).wf)

/-- Whatever comes next at each point, the work is over at some time. -/
theorem exists_not_works (run : Nat → Engine) : ∃ n, ¬ Works (run n) (run (n + 1)) :=
  @WellFounded.not_rel_apply_succ _ _ ⟨wellFounded_works⟩ run

/-- The task that is run replaces what is stored for its session. -/
theorem poll_insert (engine : Engine) (id : SessionId) (task other : Task) :
    ({ engine with tasks := engine.tasks.insert id other } : Engine).poll id task =
      engine.poll id task := by
  cases h : task.script.advance with
  | mk effects stop =>
    cases stop with
    | ended result =>
      simp only [poll_of_ended h, afterEffects, Table.erase_insert_self]
    | asking prompt resume =>
      simp only [poll_of_asking h, afterEffects, Table.erase_insert_self]
    | parked rest =>
      simp only [poll_of_parked h, afterEffects, Table.insert_insert_self]

/-- Running a task is its first call and then the run of what is left. -/
private theorem poll_emit (engine : Engine) (id : SessionId) (origin : Origin) (effect : Effect)
    (rest : Script Unit) :
    engine.poll id ⟨origin, .emit effect rest, false⟩ =
      (engine.emit id origin effect rest).poll id ⟨origin, rest, false⟩ := by
  rw [emit]
  exact ((engine.carryOut id origin effect).poll_insert id ⟨origin, rest, false⟩ _).symm

/-- A task that runs to its next stop does so call by call. -/
theorem worksTo_poll {id : SessionId} {task : Task} (h : engine.tasks.find? id = some task)
    (hready : task.parked = false) : WorksTo engine (engine.poll id task) := by
  obtain ⟨origin, script, parked⟩ := task
  cases hready
  induction script generalizing engine with
  | emit effect rest ih =>
    rw [poll_emit]
    exact .head (.emits h) (ih (Table.find?_insert_self _ _ _))
  | done | fail | ask | park => exact .single (.stops h rfl rfl)

/-- A step towards quiet is work. -/
private theorem worksTo_of_step? (h : engine.step? = some next) : WorksTo engine next := by
  obtain ⟨notice, rest, hn, rfl⟩ | ⟨id, task, -, hr, rfl⟩ := step?_cases h
  · exact .single (.receives hn)
  · obtain ⟨hf, hready⟩ := of_readyTask?_eq_some hr
    exact worksTo_poll hf hready

/-- Coming to rest is work. -/
theorem worksTo_settle (engine : Engine) : WorksTo engine engine.settle :=
  settle_induction .refl fun _ _ h hs => h.trans (worksTo_of_step? hs)

/-- There is work as long as the engine is not quiet. -/
theorem forall_not_works_iff : (∀ next, ¬ Works engine next) ↔ engine.step? = none := by
  rw [step?_eq_none_iff]
  constructor
  · intro h
    constructor
    · cases hn : engine.notices with
      | nil => rfl
      | cons notice rest => exact absurd (.receives hn) (h _)
    · rintro id ⟨origin, script, parked⟩ hf
      cases parked with
      | true => rfl
      | false =>
        cases script with
        | emit effect rest => exact absurd (.emits hf) (h _)
        | done | fail | ask | park => exact absurd (.stops hf rfl rfl) (h _)
  · rintro ⟨hnotices, hparked⟩ next hw
    cases hw with
    | receives notices =>
      rw [hnotices] at notices
      cases notices
    | emits found => cases hparked _ _ found
    | stops found ready last =>
      rw [hparked _ _ found] at ready
      cases ready

end Engine
end Encounter
