import Encounter.Proofs.Registry.Filled
import Encounter.Proofs.Script.Replay

/-!
# When a script warps

A script may keep a player in a dialogue or take the player away. The cast does not do both at once:
after a warp nothing more is asked, and on a map where anything is asked nobody is warped without
an answer.
-/

namespace Encounter

/-- Does the effect take the player to a map? -/
def Effect.isWarp : Effect → Bool
  | changeMap .. => true
  | chat _ => false
  | dropItems _ => false

namespace Script

/-- The script asks nothing. -/
def Mute {α : Type} : Script α → Prop
  | done _ => True
  | fail _ => True
  | emit _ next => next.Mute
  | ask _ _ => False
  | park next => next.Mute

/-- Whatever is answered, nothing is asked after a warp. -/
def WarpsLast {α : Type} : Script α → Prop
  | done _ => True
  | fail _ => True
  | emit effect next => (effect.isWarp = true → next.Mute) ∧ next.WarpsLast
  | ask _ next => ∀ answer, (next answer).WarpsLast
  | park next => next.WarpsLast

variable {script : Script Unit} {effects : List Effect} {prompt : Prompt}
  {next : prompt.kind.Answer → Script Unit}

theorem WarpsLast.answer (h : ∀ answer, (next answer).WarpsLast) (reply : Reply) :
    (Script.answer prompt next reply).WarpsLast := by
  unfold Script.answer
  split
  · next value _ => exact h value
  · trivial

/-- A script that asks nothing does not stop at a prompt. -/
theorem Mute.ne_asking (h : script.Mute) : script.advance ≠ (effects, .asking prompt next) := by
  intro hstop
  rw [eq_of_advance hstop] at h
  clear hstop
  induction effects with
  | nil => exact h
  | cons effect effects ih => exact ih h

/-- Up to a prompt there is no warp, and behind it warps still come last. -/
theorem WarpsLast.of_asking (h : script.WarpsLast)
    (hstop : script.advance = (effects, .asking prompt next)) :
    (∀ effect ∈ effects, effect.isWarp = false) ∧ ∀ answer, (next answer).WarpsLast := by
  rw [eq_of_advance hstop] at h
  clear hstop
  induction effects with
  | nil => exact ⟨List.forall_mem_nil _, h⟩
  | cons effect effects ih =>
    obtain ⟨hwarp, hrest⟩ := h
    obtain ⟨hnone, hnext⟩ := ih hrest
    refine ⟨List.forall_mem_cons.2 ⟨?_, hnone⟩, hnext⟩
    rw [Bool.eq_false_iff]
    intro hthis
    -- Behind a warp nothing would be asked, but the prompt is.
    have hmute := hwarp hthis
    clear hwarp hrest hnone hnext ih
    induction effects with
    | nil => exact hmute
    | cons effect effects ih => exact ih hmute

end Script

/-- The script never parks and asks nothing after a warp. On a silent map it asks nothing at all; on
any other it warps nobody before the first answer. -/
structure NamedScript.Courteous (silent : MapId → Prop) (script : NamedScript) : Prop where
  neverParks : ∀ ctx, (script.run ctx).NeverParks
  warpsLast : ∀ ctx, (script.run ctx).WarpsLast
  mute : ∀ ctx, silent ctx.map.id → (script.run ctx).Mute
  stays : ∀ ctx, ¬ silent ctx.map.id → ∀ effect ∈ (script.run ctx).advance.1,
    effect.isWarp = false

namespace Tory

/-- What is done with the result of a script makes no difference if it is thrown away. -/
private theorem bind_bind_const {α : Type} (script : Script Unit) (value : α) :
    (script.bind fun _ => .done value).bind (fun _ => .done ()) = script := by
  induction script with
  | done value => rfl
  | fail error => rfl
  | emit effect next ih => exact congrArg _ ih
  | ask prompt next ih => exact congrArg _ (funext ih)
  | park next ih => exact congrArg _ ih

theorem find?_branches (map : MapId) : branches.find? map =
    if map = offeredReturnMap then some offeredReturn
    else if map = forcedReturnMap then some forcedReturn
    else if map = henesysPark then some entrance
    else none := by
  show (((Table.empty.insert _ _).insert _ _).insert _ _).find? map = _
  rw [Table.find?_insert, Table.find?_insert, Table.find?_insert]
  rfl

/-- Tory's script is the branch of the map, if there is one. -/
theorem run_script (ctx : Context) : script.run ctx =
    match branches.find? ctx.map.id with
    | some branch => branch.run ctx
    | none => .done () := by
  show (branches.dispatch ctx.map.id ctx).bind _ = _
  unfold Branches.dispatch
  cases branches.find? ctx.map.id with
  | some branch => exact bind_bind_const _ true
  | none => rfl

private theorem courteous_entrance : entrance.Courteous fun _ => False where
  neverParks ctx := by
    intro _ choice
    show Script.NeverParks (if choice ≠ 0 then .done () else Script.say _)
    split
    · trivial
    · exact fun _ => trivial
  warpsLast ctx := by
    intro _ choice
    show Script.WarpsLast (if choice ≠ 0 then .done () else Script.say _)
    split
    · trivial
    · exact fun _ => trivial
  mute _ h := h.elim
  stays _ _ := List.forall_mem_nil _

private theorem courteous_offeredReturn : offeredReturn.Courteous fun _ => False where
  neverParks ctx := by
    intro answer
    cases answer <;> trivial
  warpsLast ctx := by
    intro answer
    cases answer
    · exact ⟨fun _ => trivial, trivial⟩
    · trivial
  mute _ h := h.elim
  stays _ _ := List.forall_mem_nil _

/-- On the map of the forced return Tory acts without a question; elsewhere she asks first, or does
nothing. -/
private theorem run_cases (ctx : Context) :
    (ctx.map.id = forcedReturnMap ∧ script.run ctx = forcedReturn.run ctx) ∨
      ctx.map.id ≠ forcedReturnMap ∧
        ∃ branch : NamedScript, branch.Courteous (fun _ => False) ∧
          script.run ctx = branch.run ctx := by
  have hidle : (NamedScript.idle "none").Courteous fun _ => False :=
    ⟨fun _ => trivial, fun _ => trivial, fun _ h => h.elim, fun _ _ => List.forall_mem_nil _⟩
  rw [run_script, find?_branches]
  by_cases hoffered : ctx.map.id = offeredReturnMap
  · refine .inr ⟨by rw [hoffered]; decide, offeredReturn, courteous_offeredReturn, ?_⟩
    rw [if_pos hoffered]
  · by_cases hforced : ctx.map.id = forcedReturnMap
    · refine .inl ⟨hforced, ?_⟩
      rw [if_neg hoffered, if_pos hforced]
    · refine .inr ⟨hforced, ?_⟩
      by_cases hpark : ctx.map.id = henesysPark
      · refine ⟨entrance, courteous_entrance, ?_⟩
        rw [if_neg hoffered, if_neg hforced, if_pos hpark]
      · refine ⟨_, hidle, ?_⟩
        rw [if_neg hoffered, if_neg hforced, if_neg hpark]
        rfl

/-- Tory asks nothing where she forces players back, and takes nobody back unasked elsewhere. -/
theorem courteous : script.Courteous (· = forcedReturnMap) where
  neverParks ctx := by
    obtain ⟨-, hrun⟩ | ⟨-, branch, hbranch, hrun⟩ := run_cases ctx
    · rw [hrun]
      trivial
    · rw [hrun]
      exact hbranch.neverParks ctx
  warpsLast ctx := by
    obtain ⟨-, hrun⟩ | ⟨-, branch, hbranch, hrun⟩ := run_cases ctx
    · rw [hrun]
      exact ⟨fun _ => trivial, (nomatch ·), trivial⟩
    · rw [hrun]
      exact hbranch.warpsLast ctx
  mute ctx hsilent := by
    obtain ⟨-, hrun⟩ | ⟨hother, -⟩ := run_cases ctx
    · rw [hrun]
      trivial
    · exact absurd hsilent hother
  stays ctx hasks := by
    obtain ⟨hforced, -⟩ | ⟨-, branch, hbranch, hrun⟩ := run_cases ctx
    · exact absurd hforced hasks
    · rw [hrun]
      exact hbranch.stays ctx id

end Tory

/-- The box only drops things. -/
theorem ScrapBox.courteous (silent : MapId → Prop) : script.Courteous silent where
  neverParks _ := trivial
  warpsLast _ := ⟨(nomatch ·), trivial⟩
  mute _ _ := trivial
  stays _ _ := by
    intro effect hm
    rw [List.mem_singleton.1 hm]
    rfl

namespace Registry

/-- Every script is courteous. -/
def Courteous (silent : MapId → Prop) (registry : Registry) : Prop :=
  ∀ key script, registry.find? key = some script → script.Courteous silent

variable {silent : MapId → Prop}

theorem Courteous.insert {registry : Registry} {script : NamedScript}
    (h : registry.Courteous silent) (hscript : script.Courteous silent) (key : TriggerKey) :
    (registry.insert key script).Courteous silent := by
  intro other found hfound
  have hfind := (Table.find?_insert registry.scripts key other script).symm.trans hfound
  split at hfind
  · cases hfind
    exact hscript
  · exact h other found hfind

/-- Whatever is bound to scripts of a courteous catalog, the registry is courteous. -/
theorem Courteous.addBindings {catalog : Catalog} {registry next : Registry}
    {bindings : List Binding} (h : registry.Courteous silent)
    (hcatalog : ∀ name script, catalog.find? name = some script → script.Courteous silent)
    (hadded : Registry.addBindings catalog registry bindings = .ok next) :
    next.Courteous silent := by
  induction bindings generalizing registry with
  | nil =>
    cases hadded
    exact h
  | cons binding rest ih =>
    unfold Registry.addBindings at hadded
    cases hfound : catalog.find? binding.script with
    | none =>
      rw [hfound] at hadded
      cases hadded
    | some script =>
      rw [hfound] at hadded
      exact ih (h.insert (hcatalog _ script hfound) binding.key) hadded

end Registry

/-- Only the two scripts of the cast are in its catalog. -/
theorem Catalog.courteous_builtin {name : String} {script : NamedScript}
    (h : builtin.find? name = some script) :
    script.Courteous (· = Tory.forcedReturnMap) := by
  rw [builtin, find?_ofList] at h
  have hm := List.mem_reverse.1 (List.mem_of_find?_eq_some h)
  simp only [List.mem_cons, List.not_mem_nil, or_false] at hm
  obtain rfl | rfl := hm
  · exact Tory.courteous
  · exact ScrapBox.courteous _

end Encounter
