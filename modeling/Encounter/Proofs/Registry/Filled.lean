import Encounter.Registry
import Encounter.Binding.Bundled
import Encounter.Proofs.Table.Filled
import Encounter.Proofs.Binding.Repeated

/-!
# From bindings to the registry

A catalog and a registry are both filled entry by entry. The catalog has each script under its own
name; bindings are looked up in it from left to right until one names a script that is missing. So
each key is answered by the script that its last binding names, until a script is registered in its
place.
-/

namespace Encounter

namespace Catalog

private theorem scripts_foldl_register (catalog : Catalog) (scripts : List NamedScript) :
    (scripts.foldl register catalog).scripts =
      catalog.scripts.insertAll (scripts.map fun script => (script.name, script)) := by
  induction scripts generalizing catalog with
  | nil => rfl
  | cons script scripts ih => exact ih (catalog.register script)

/-- The script that was registered last under a name. -/
def lastNamed? (name : String) (scripts : List NamedScript) : Option NamedScript :=
  scripts.reverse.find? fun script => script.name = name

theorem find?_ofList (scripts : List NamedScript) (name : String) :
    (ofList scripts).find? name = lastNamed? name scripts := by
  show (scripts.foldl register empty).scripts.find? name = _
  rw [scripts_foldl_register, Table.find?_insertAll, Table.lastOf?, ← List.map_reverse,
    List.find?_map, Option.map_map]
  exact (Option.or_none).trans Option.map_id'

/-- The catalog knows the names of the scripts that were registered, and no others. -/
private theorem isSome_find?_ofList_iff {scripts : List NamedScript} {name : String} :
    ((ofList scripts).find? name).isSome ↔ name ∈ scripts.map NamedScript.name := by
  rw [find?_ofList, lastNamed?, List.find?_isSome]
  simp only [List.mem_reverse, decide_eq_true_eq, List.mem_map]

end Catalog

namespace Registry

/-- The last binding of a key. -/
def lastBound? (key : TriggerKey) (bindings : List Binding) : Option Binding :=
  bindings.reverse.find? fun binding => binding.key = key

/-- The keys of bindings, with the scripts that the catalog has for them. -/
def resolved (catalog : Catalog) (bindings : List Binding) : List (TriggerKey × NamedScript) :=
  bindings.filterMap fun binding => (catalog.find? binding.script).map (binding.key, ·)

variable {catalog : Catalog}

/-- The first binding without a script is reported; if there is none, all are stored. -/
private theorem addBindings_eq (registry : Registry) (bindings : List Binding) :
    addBindings catalog registry bindings =
      match bindings.find? fun binding => (catalog.find? binding.script).isNone with
      | some binding => .error ⟨binding.key, binding.script⟩
      | none => .ok ⟨registry.scripts.insertAll (resolved catalog bindings)⟩ := by
  induction bindings generalizing registry with
  | nil => rfl
  | cons first rest ih =>
    cases hfound : catalog.find? first.script with
    | none => simp [addBindings, hfound]
    | some script =>
      simp only [addBindings, hfound, ih, List.find?_cons, Option.isNone_some, resolved,
        List.filterMap_cons, Option.map_some]
      rfl

/-- If all bindings are resolved, the last pair of a key comes from its last binding. -/
private theorem lastOf?_resolved {bindings : List Binding}
    (h : ∀ binding ∈ bindings, (catalog.find? binding.script).isSome) (key : TriggerKey) :
    Table.lastOf? key (resolved catalog bindings) =
      (lastBound? key bindings).bind fun binding => catalog.find? binding.script := by
  induction bindings with
  | nil => rfl
  | cons first rest ih =>
    obtain ⟨hfirst, hrest⟩ := List.forall_mem_cons.1 h
    obtain ⟨script, hscript⟩ := Option.isSome_iff_exists.1 hfirst
    have hcons : resolved catalog (first :: rest) =
        (first.key, script) :: resolved catalog rest := by
      rw [resolved, List.filterMap_cons, hscript]
      rfl
    have hlast : lastBound? key (first :: rest) =
        (lastBound? key rest).or (if first.key = key then some first else none) := by
      rw [lastBound?, List.reverse_cons, List.find?_append]
      by_cases hkey : first.key = key <;> simp [lastBound?, hkey]
    rw [hcons, Table.lastOf?_cons, ih hrest, hlast]
    -- If a later binding has the key, its script is known, so the first binding does not matter.
    cases hbound : lastBound? key rest with
    | none =>
      by_cases hkey : first.key = key <;> simp [hkey, hscript]
    | some binding =>
      have hm : binding ∈ rest := List.mem_reverse.1 (List.mem_of_find?_eq_some hbound)
      obtain ⟨other, hother⟩ := Option.isSome_iff_exists.1 (hrest binding hm)
      simp [hother]

/-- A key has a last binding exactly if it is bound. -/
private theorem isSome_lastBound?_iff {key : TriggerKey} {bindings : List Binding} :
    (lastBound? key bindings).isSome ↔ key ∈ bindings.map Binding.key := by
  rw [lastBound?, List.find?_isSome]
  simp only [List.mem_reverse, decide_eq_true_eq, List.mem_map]

/-- With distinct keys, each binding is the last one of its key. -/
private theorem lastBound?_of_mem {bindings : List Binding} (h : (bindings.map Binding.key).Nodup)
    {binding : Binding} (hm : binding ∈ bindings) :
    lastBound? binding.key bindings = some binding := by
  obtain ⟨found, hfound⟩ := Option.isSome_iff_exists.1
    (isSome_lastBound?_iff.2 (List.mem_map_of_mem hm))
  have hkey : found.key = binding.key := by simpa using List.find?_some hfound
  have hfoundMem : found ∈ bindings := List.mem_reverse.1 (List.mem_of_find?_eq_some hfound)
  rw [hfound, List.inj_on_of_nodup_map h hfoundMem hm hkey]

/-- Registers scripts from left to right; gives what each of them replaced, and the registry. -/
def registerAll (registry : Registry) :
    List (TriggerKey × NamedScript) → List (Option NamedScript) × Registry
  | [] => ([], registry)
  | (key, script) :: rest =>
    let (replaced, next) := registry.register key script
    let (others, last) := next.registerAll rest
    (replaced :: others, last)

private theorem scripts_registerAll (registry : Registry)
    (calls : List (TriggerKey × NamedScript)) :
    (registry.registerAll calls).2.scripts = registry.scripts.insertAll calls := by
  induction calls generalizing registry with
  | nil => rfl
  | cons call calls ih => exact ih (registry.insert call.1 call.2)

/-- A key has the script that was registered last for it, or else the one that it had. -/
private theorem find?_registerAll (registry : Registry) (calls : List (TriggerKey × NamedScript))
    (key : TriggerKey) :
    (registry.registerAll calls).2.find? key =
      (Table.lastOf? key calls).or (registry.find? key) := by
  show (registry.registerAll calls).2.scripts.find? key = _
  rw [scripts_registerAll, Table.find?_insertAll]
  rfl

/-- Each call gives what its key had after the calls before it. -/
theorem replaced_registerAll (registry : Registry) (before : List (TriggerKey × NamedScript))
    (call : TriggerKey × NamedScript) (rest : List (TriggerKey × NamedScript)) :
    (registry.registerAll (before ++ call :: rest)).1[before.length]? =
      some ((registry.registerAll before).2.find? call.1) := by
  induction before generalizing registry with
  | nil => rfl
  | cons first before ih => exact ih (registry.insert first.1 first.2)

private theorem length_registerAll (registry : Registry) (calls : List (TriggerKey × NamedScript)) :
    (registry.registerAll calls).1.length = calls.length := by
  induction calls generalizing registry with
  | nil => rfl
  | cons call calls ih => exact congrArg (· + 1) (ih (registry.insert call.1 call.2))

section Filled

variable {scripts : List NamedScript} {bindings : List Binding}

/-- The registry that bindings of registered scripts fill. -/
def filled (scripts : List NamedScript) (bindings : List Binding) : Registry :=
  ⟨Table.empty.insertAll (resolved (Catalog.ofList scripts) bindings)⟩

/-- The first binding that names no registered script is reported. -/
private theorem ofBindings_ofList_eq (scripts : List NamedScript) (bindings : List Binding) :
    ofBindings (Catalog.ofList scripts) bindings =
      match bindings.find? fun binding => binding.script ∉ scripts.map NamedScript.name with
      | some binding => .error ⟨binding.key, binding.script⟩
      | none => .ok (filled scripts bindings) := by
  have hunresolved : (fun binding : Binding =>
      ((Catalog.ofList scripts).find? binding.script).isNone) =
        fun binding => decide (binding.script ∉ scripts.map NamedScript.name) := by
    funext binding
    rw [← Option.not_isSome, Bool.eq_iff_iff, Bool.not_eq_true', decide_eq_true_eq,
      ← Catalog.isSome_find?_ofList_iff, Bool.not_eq_true]
  rw [ofBindings, addBindings_eq, hunresolved]
  rfl

theorem ofBindings_eq_error_iff {error : UnknownScript} :
    ofBindings (Catalog.ofList scripts) bindings = .error error ↔ ∃ binding,
      (bindings.find? fun binding => binding.script ∉ scripts.map NamedScript.name) = some binding ∧
        error = ⟨binding.key, binding.script⟩ := by
  rw [ofBindings_ofList_eq]
  cases bindings.find? fun binding => binding.script ∉ scripts.map NamedScript.name with
  | none => simp
  | some binding => simp [eq_comm]

variable (hknown : ∀ binding ∈ bindings, binding.script ∈ scripts.map NamedScript.name)

include hknown

/-- Bindings that all name registered scripts are all stored. -/
private theorem ofBindings_of_known :
    ofBindings (Catalog.ofList scripts) bindings = .ok (filled scripts bindings) := by
  have hnone : (bindings.find? fun binding =>
      binding.script ∉ scripts.map NamedScript.name) = none := by
    rw [List.find?_eq_none]
    intro binding hm
    simpa using hknown binding hm
  rw [ofBindings_ofList_eq, hnone]

/-- A key is answered by the script that its last binding names. -/
private theorem find?_filled (key : TriggerKey) :
    (filled scripts bindings).find? key =
      (lastBound? key bindings).bind fun binding =>
        Catalog.lastNamed? binding.script scripts := by
  have hlast := lastOf?_resolved
    (fun binding hm => Catalog.isSome_find?_ofList_iff.2 (hknown binding hm)) key
  simp only [Catalog.find?_ofList] at hlast
  show (Table.empty.insertAll _).find? key = _
  rw [Table.find?_insertAll, hlast]
  exact Option.or_none

theorem find?_filled_eq_some_iff {key : TriggerKey} {script : NamedScript} :
    (filled scripts bindings).find? key = some script ↔ ∃ binding,
      lastBound? key bindings = some binding ∧ script.name = binding.script ∧
        Catalog.lastNamed? binding.script scripts = some script := by
  rw [find?_filled hknown, Option.bind_eq_some_iff]
  refine exists_congr fun binding => and_congr_right fun _ => (and_iff_right_of_imp ?_).symm
  intro hnamed
  simpa using List.find?_some hnamed

/-- The keys of bindings that are all stored. -/
private theorem map_fst_resolved :
    (resolved (Catalog.ofList scripts) bindings).map Prod.fst = bindings.map Binding.key := by
  induction bindings with
  | nil => rfl
  | cons first rest ih =>
    obtain ⟨hfirst, hrest⟩ := List.forall_mem_cons.1 hknown
    obtain ⟨script, hscript⟩ :=
      Option.isSome_iff_exists.1 (Catalog.isSome_find?_ofList_iff.2 hfirst)
    rw [resolved, List.filterMap_cons, hscript]
    exact congrArg (first.key :: ·) (ih hrest)

/-- A key is answered exactly if it is bound. -/
private theorem isSome_find?_filled_iff {key : TriggerKey} :
    ((filled scripts bindings).find? key).isSome ↔ key ∈ bindings.map Binding.key := by
  rw [← map_fst_resolved hknown, ← Table.isSome_lastOf?_iff]
  show ((Table.empty.insertAll _).find? key).isSome ↔ _
  rw [Table.find?_insertAll, Table.find?_empty, Option.or_none]

/-- With distinct keys, every binding is in force. -/
private theorem find?_filled_of_mem (hkeys : (bindings.map Binding.key).Nodup) {binding : Binding}
    (hm : binding ∈ bindings) :
    ∃ script, (filled scripts bindings).find? binding.key = some script ∧
      script.name = binding.script := by
  obtain ⟨script, hfound⟩ := Option.isSome_iff_exists.1
    ((isSome_find?_filled_iff hknown).2 (List.mem_map_of_mem hm))
  obtain ⟨last, hlast, hname, -⟩ := (find?_filled_eq_some_iff hknown).1 hfound
  rw [lastBound?_of_mem hkeys hm] at hlast
  cases hlast
  exact ⟨script, hfound, hname⟩

/-- However much is registered afterwards, distinct keys count once. -/
theorem size_registerAll_filled (calls : List (TriggerKey × NamedScript)) :
    ((filled scripts bindings).registerAll calls).2.size =
      (bindings.map Binding.key ++ calls.map Prod.fst).dedup.length := by
  have hall : ((filled scripts bindings).registerAll calls).2.scripts =
      Table.empty.insertAll (resolved (Catalog.ofList scripts) bindings ++ calls) := by
    rw [scripts_registerAll]
    exact List.foldl_append.symm
  show Table.size _ = _
  rw [hall, Table.size_insertAll, List.map_append, map_fst_resolved hknown]
  rfl

end Filled

/-- Bindings reach the registry unchanged. They are refused exactly if one of them names no script of
the catalog, and the first such one is reported. Otherwise a key is answered exactly if it is bound,
by the script that is registered under the name that its last binding gives. So every single
binding of an accepted file is in force. Whatever is registered afterwards, each key has the script
registered last, each call gives the one that it replaces, and distinct keys count once. -/
theorem ofBindings_exact (scripts : List NamedScript) (bindings : List Binding) :
    let made := ofBindings (Catalog.ofList scripts) bindings
    let names := scripts.map NamedScript.name
    (∀ error, made = .error error ↔ ∃ binding,
      (bindings.find? fun binding => binding.script ∉ names) = some binding ∧
        error = ⟨binding.key, binding.script⟩) ∧
    ((∀ binding ∈ bindings, binding.script ∈ names) → ∃ registry, made = .ok registry ∧
      (∀ key, (registry.find? key).isSome ↔ key ∈ bindings.map Binding.key) ∧
      (∀ key script, registry.find? key = some script ↔ ∃ binding,
        lastBound? key bindings = some binding ∧ script.name = binding.script ∧
          Catalog.lastNamed? binding.script scripts = some script) ∧
      (∀ text, Binding.parse text = .ok bindings →
        registry.size = bindings.length ∧ ∀ binding ∈ bindings, ∃ script,
          registry.find? binding.key = some script ∧ script.name = binding.script) ∧
      ∀ calls,
        let later := registry.registerAll calls
        (∀ key, later.2.find? key = (Table.lastOf? key calls).or (registry.find? key)) ∧
        later.1.length = calls.length ∧
        (∀ before call rest, calls = before ++ call :: rest →
          later.1[before.length]? =
            some ((Table.lastOf? call.1 before).or (registry.find? call.1))) ∧
        later.2.size = (bindings.map Binding.key ++ calls.map Prod.fst).dedup.length) := by
  intro made names
  refine ⟨fun error => ofBindings_eq_error_iff, fun hknown => ?_⟩
  refine ⟨filled scripts bindings, ofBindings_of_known hknown,
    fun key => isSome_find?_filled_iff hknown, fun key script => find?_filled_eq_some_iff hknown,
    ?_, fun calls => ⟨find?_registerAll _ calls, length_registerAll _ calls, ?_, ?_⟩⟩
  · intro text hparse
    have hkeys := (Binding.parse_eq_ok_iff.1 hparse).2
    have hsize := size_registerAll_filled hknown []
    rw [List.map_nil, List.append_nil, hkeys.dedup, List.length_map] at hsize
    exact ⟨hsize, fun binding hm => find?_filled_of_mem hknown hkeys hm⟩
  · rintro before call rest rfl
    rw [← find?_registerAll]
    exact replaced_registerAll _ before call rest
  · exact size_registerAll_filled hknown calls

/-- The bundled file gives Tory and the scrap box one entry each; letting the box answer for Tory
gives Tory's script back and leaves two keys, while a binding of a name that nobody has is
reported. -/
theorem ofBindings_exact_bundled :
    (∃ registry, ofBindings (Catalog.ofList [Tory.script, ScrapBox.script]) Binding.builtin =
        .ok registry ∧
      registry.size = 2 ∧
      (∀ binding ∈ Binding.builtin, ∃ script,
        registry.find? binding.key = some script ∧ script.name = binding.script) ∧
      let later := registry.registerAll [(.npc Tory.npc, ScrapBox.script)]
      later.2.find? (.npc Tory.npc) = some ScrapBox.script ∧
        later.1[0]? = some (registry.find? (.npc Tory.npc)) ∧ later.2.size = 2) ∧
    ofBindings (Catalog.ofList [Tory.script]) Binding.builtin =
      .error ⟨.reactor ScrapBox.reactor, "amherst_scrap_box"⟩ := by
  have hparse : Binding.parse Binding.bundledText = .ok Binding.builtin := by decide +kernel
  obtain ⟨registry, hmade, -, -, hparsed, hlater⟩ :=
    (ofBindings_exact [Tory.script, ScrapBox.script] Binding.builtin).2 (by decide)
  obtain ⟨hsize, hall⟩ := hparsed _ hparse
  obtain ⟨hfind, -, hreplaced, hcount⟩ := hlater [(.npc Tory.npc, ScrapBox.script)]
  refine ⟨⟨registry, hmade, hsize, hall, ?_, ?_, ?_⟩, ?_⟩
  · exact hfind (.npc Tory.npc)
  · exact hreplaced [] _ [] rfl
  · exact hcount
  · exact ((ofBindings_exact [Tory.script] Binding.builtin).1 _).2 ⟨_, rfl, rfl⟩

end Registry
end Encounter
