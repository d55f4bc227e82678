import Encounter.Proofs.Chronicle.Told
import Encounter.Proofs.Engine.Interleaving

/-!
# Notices in the order in which they were sent

Commands, tasks and notices may interleave in any way, but notices arrive in the order in which they
were sent. Such acts are made of moves, so the state of the engine stays together; and every run of
operations, with the engine coming to rest after each of them, is a run of such acts.
-/

namespace Encounter

/-- Is the act one of the engine's own, and not a request from outside? -/
def Act.IsInner : Act → Prop
  | command _ => False
  | _ => True

/-- The requests of clients in an operation, as acts. -/
def Operation.requests : Operation → List Act
  | command request => [.command request]
  | _ => []

namespace Engine

/-- If the act handles a notice, it is the oldest one. -/
def Takes (engine : Engine) : Act → Prop
  | .notice notice rest => engine.notices = notice :: rest
  | _ => True

/-- The acts handle notices in the order in which they were sent. -/
def InOrder (engine : Engine) : List Act → Prop
  | [] => True
  | act :: acts => engine.Takes act ∧ InOrder (engine.act act) acts

private theorem inOrder_append {engine : Engine} {acts others : List Act} :
    engine.InOrder (acts ++ others) ↔
      engine.InOrder acts ∧ (engine.after acts).InOrder others := by
  induction acts generalizing engine with
  | nil => simp [InOrder, after]
  | cons act acts ih =>
    rw [List.cons_append, InOrder, InOrder, ih, and_assoc]
    rfl

/-- An act that takes the oldest notice, if any, is made of moves. -/
private theorem moves_act {engine : Engine} {act : Act} (h : engine.Takes act) :
    ∃ notes, Moves engine notes (engine.act act) := by
  cases act with
  | command command =>
    obtain ⟨events, hm⟩ := engine.moves_handle command
    exact ⟨_, hm⟩
  | notice notice rest =>
    obtain ⟨events, hm⟩ := proceeds_receive h rfl
    exact ⟨_, hm⟩
  | poll id =>
    unfold Engine.act
    dsimp only
    cases ht : engine.tasks.find? id with
    | none => exact ⟨[], .refl engine⟩
    | some task => exact ⟨_, (Move.polled ht).moves⟩
  | unpark id =>
    unfold Engine.act
    dsimp only
    cases ht : engine.tasks.find? id with
    | none =>
      rw [Table.modify_of_find?_eq_none _ ht]
      exact ⟨[], .refl engine⟩
    | some task =>
      rw [Table.modify_eq_insert _ ht]
      exact ⟨[], (Move.unparked ht).moves⟩
  | edit edit => exact ⟨[], (Move.edited edit).moves⟩

/-- Any act is made of moves, from the state in which the notice that it takes is the oldest one. -/
theorem exists_moves_act (engine : Engine) (act : Act) :
    ∃ notices notes, Moves { engine with notices } notes (engine.act act) := by
  cases act with
  | notice notice rest =>
    have htakes : Takes { engine with notices := notice :: rest } (.notice notice rest) := rfl
    exact ⟨notice :: rest, moves_act htakes⟩
  | command | poll | unpark | edit => exact ⟨engine.notices, moves_act trivial⟩

/-- An act that takes the oldest notice, if any, keeps the state of the engine together. -/
theorem WF.act {engine : Engine} (h : engine.WF) {act : Act} (ht : engine.Takes act) :
    (engine.act act).WF := by
  obtain ⟨notes, hm⟩ := moves_act ht
  exact hm.wf h

/-- What holds before and is kept by every act that takes the oldest notice holds after acts in
order, as the state of the engine stays together meanwhile. -/
theorem inOrder_induction {P : Engine → Prop} {engine : Engine} {acts : List Act}
    (h : engine.InOrder acts) (hwf : engine.WF) (hstart : P engine)
    (hact : ∀ engine act, engine.WF → engine.Takes act → P engine → P (engine.act act)) :
    P (engine.after acts) := by
  induction acts generalizing engine with
  | nil => exact hstart
  | cons act acts ih => exact ih h.2 (hwf.act h.1) (hact engine act hwf h.1 hstart)

/-- A step is an act in order. -/
private theorem exists_act_of_step? {engine next : Engine} (h : engine.step? = some next) :
    ∃ act : Act, act.IsInner ∧ engine.Takes act ∧ engine.act act = next := by
  obtain ⟨notice, rest, hn, rfl⟩ | ⟨id, task, -, hr, rfl⟩ := step?_cases h
  · exact ⟨.notice notice rest, trivial, hn, rfl⟩
  · refine ⟨.poll id, trivial, trivial, ?_⟩
    rw [act, (of_readyTask?_eq_some hr).1]

/-- Coming to rest is acts in order. -/
private theorem exists_acts_settle (engine : Engine) :
    ∃ acts, (∀ act ∈ acts, act.IsInner) ∧ engine.InOrder acts ∧
      engine.after acts = engine.settle := by
  apply settle_induction (P := fun rested => ∃ acts, (∀ act ∈ acts, act.IsInner) ∧
    engine.InOrder acts ∧ engine.after acts = rested)
  · exact ⟨[], by simp, trivial, rfl⟩
  · rintro middle next ⟨acts, hinner, horder, rfl⟩ hs
    obtain ⟨act, hact, htakes, rfl⟩ := exists_act_of_step? hs
    refine ⟨acts ++ [act], ?_, inOrder_append.2 ⟨horder, htakes, trivial⟩, after_append _ _ _⟩
    simpa [or_imp, forall_and] using ⟨hinner, hact⟩

/-- An operation is its request, if any, and then acts of the engine's own, in order. -/
theorem exists_acts_operate (engine : Engine) (operation : Operation) :
    ∃ acts, (∀ act ∈ acts, act.IsInner) ∧ engine.InOrder (operation.requests ++ acts) ∧
      engine.after (operation.requests ++ acts) = engine.operate operation := by
  cases operation with
  | command command =>
    obtain ⟨acts, hinner, horder, he⟩ := (engine.act (.command command)).exists_acts_settle
    exact ⟨acts, hinner, ⟨trivial, horder⟩, he⟩
  | edit change => exact ⟨[.edit change], by simp [Act.IsInner], ⟨trivial, trivial⟩, rfl⟩
  | release slot =>
    show ∃ acts, _ ∧ engine.InOrder acts ∧ engine.after acts = (engine.release slot).1
    unfold release
    cases engine.table.inSlot? slot with
    | none => exact ⟨[], by simp, trivial, rfl⟩
    | some entry =>
      dsimp only
      cases ht : engine.tasks.find? entry.1 with
      | none => exact ⟨[], by simp, trivial, rfl⟩
      | some task =>
        dsimp only
        split
        · obtain ⟨acts, hinner, horder, he⟩ := (engine.act (.unpark entry.1)).exists_acts_settle
          refine ⟨.unpark entry.1 :: acts, ?_, ⟨trivial, horder⟩, ?_⟩
          · simpa [Act.IsInner] using hinner
          · refine he.trans ?_
            rw [act, Table.modify_eq_insert _ ht]
        · exact ⟨[], by simp, trivial, rfl⟩

/-- A run of operations is a run of acts in order. -/
theorem exists_acts_play (engine : Engine) (operations : List Operation) :
    ∃ acts, engine.InOrder acts ∧ engine.after acts = engine.play operations := by
  induction operations generalizing engine with
  | nil => exact ⟨[], trivial, rfl⟩
  | cons operation operations ih =>
    obtain ⟨acts, -, horder, he⟩ := engine.exists_acts_operate operation
    obtain ⟨rest, hrest, hplay⟩ := ih (engine.operate operation)
    refine ⟨operation.requests ++ acts ++ rest, inOrder_append.2 ⟨horder, he ▸ hrest⟩, ?_⟩
    rw [after_append, he, hplay]
    rfl

/-- No operation touches the registry. -/
theorem registry_play (engine : Engine) (operations : List Operation) :
    (engine.play operations).registry = engine.registry := by
  obtain ⟨acts, -, he⟩ := engine.exists_acts_play operations
  rw [← he, registry_after]

/-- While a session is active after a run, the engine accepts commands. -/
theorem accepting_of_find?_play {engine : Engine} (h : engine.accepting = true)
    {operations : List Operation} {id : SessionId} {session : Session}
    (hf : (engine.play operations).table.find? id = some session) :
    (engine.play operations).accepting = true := by
  obtain ⟨acts, -, he⟩ := engine.exists_acts_play operations
  rw [← he] at hf ⊢
  exact accepting_of_find?_after h hf

/-- The engine came into this state from a new one by acts in order. -/
def Reachable (engine : Engine) : Prop :=
  ∃ registry world acts,
    (new registry world).InOrder acts ∧ (new registry world).after acts = engine

theorem reachable_play (registry : Registry) (world : World) (operations : List Operation) :
    ((new registry world).play operations).Reachable := by
  obtain ⟨acts, horder, he⟩ := (new registry world).exists_acts_play operations
  exact ⟨registry, world, acts, horder, he⟩

/-- Acts in order are made of moves. -/
theorem exists_moves_after {engine : Engine} (hwf : engine.WF) {acts : List Act}
    (horder : engine.InOrder acts) : ∃ notes, Moves engine notes (engine.after acts) := by
  apply inOrder_induction (P := fun next => ∃ notes, Moves engine notes next) horder hwf
    ⟨[], .refl engine⟩
  rintro next act - htakes ⟨notes, hm⟩
  obtain ⟨others, hact⟩ := moves_act htakes
  exact ⟨notes ++ others, hm.trans hact⟩

theorem Reachable.wf {engine : Engine} (h : engine.Reachable) : engine.WF := by
  obtain ⟨registry, world, acts, horder, rfl⟩ := h
  obtain ⟨notes, hm⟩ := exists_moves_after (wf_new registry world) horder
  exact hm.wf (wf_new registry world)

/-- There are notes on all that happened. -/
theorem Reachable.tells {engine : Engine} (h : engine.Reachable) :
    ∃ notes, engine.log = notes.filterMap Entry.event? ∧ ∀ id, engine.Tells notes id := by
  obtain ⟨registry, world, acts, horder, rfl⟩ := h
  obtain ⟨notes, hm⟩ := exists_moves_after (wf_new registry world) horder
  exact ⟨notes, hm.log, hm.tells (wf_new registry world) (tells_new registry world)⟩

theorem Reachable.oneDialogue {engine : Engine} (h : engine.Reachable) :
    engine.table.OneDialogue := by
  obtain ⟨registry, world, acts, -, rfl⟩ := h
  exact (changes_after (new registry world) acts).oneDialogue SessionTable.oneDialogue_empty

/-- What acts in order lead to from there can be reached as well. -/
theorem Reachable.after {engine : Engine} (h : engine.Reachable) {acts : List Act}
    (horder : engine.InOrder acts) : (engine.after acts).Reachable := by
  obtain ⟨registry, world, before, hbefore, rfl⟩ := h
  exact ⟨registry, world, before ++ acts, inOrder_append.2 ⟨hbefore, horder⟩, after_append _ _ _⟩

/-- While a session is active the engine accepts commands. -/
theorem Reachable.accepting {engine : Engine} (h : engine.Reachable) {id : SessionId}
    {session : Session} (hf : engine.table.find? id = some session) : engine.accepting = true := by
  obtain ⟨registry, world, acts, -, rfl⟩ := h
  exact @accepting_of_find?_after (new registry world) rfl acts _ _ hf

end Engine
end Encounter
