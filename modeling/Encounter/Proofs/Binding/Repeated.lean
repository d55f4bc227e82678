import Encounter.Binding
import Mathlib.Data.List.Nodup

/-!
# Keys that are bound once

The search for a repeated key comes to nothing exactly if no two bindings have one key. So the
bindings of a file that is accepted have distinct keys, and a file that is refused for a repeated key
names the one that is repeated first.
-/

namespace Encounter
namespace Binding

/-- No key is found to be repeated if the keys are distinct and none was seen before. -/
theorem firstRepeated_eq_none_iff {seen : List TriggerKey} {bindings : List Binding} :
    firstRepeated seen bindings = none ↔
      (bindings.map key).Nodup ∧ ∀ binding ∈ bindings, binding.key ∉ seen := by
  induction bindings generalizing seen with
  | nil => simp [firstRepeated]
  | cons first rest ih =>
    unfold firstRepeated
    by_cases hseen : first.key ∈ seen
    · simp [hseen]
    · simp only [List.contains_eq_mem, hseen, decide_false, Bool.false_eq_true, if_false, ih,
        List.mem_cons, not_or, List.map_cons, List.nodup_cons, List.mem_map, not_exists, not_and,
        forall_eq_or_imp, not_false_eq_true, true_and]
      constructor
      · rintro ⟨hnodup, hrest⟩
        exact ⟨⟨fun binding hm => (hrest binding hm).1, hnodup⟩, fun binding hm =>
          (hrest binding hm).2⟩
      · rintro ⟨⟨hfirst, hnodup⟩, hrest⟩
        exact ⟨hnodup, fun binding hm => ⟨hfirst binding hm, hrest binding hm⟩⟩

/-- The bindings of a text are accepted exactly if their keys are distinct. -/
theorem parse_eq_ok_iff {s : String} {bindings : List Binding} :
    parse s = .ok bindings ↔ read? s = some bindings ∧ (bindings.map key).Nodup := by
  unfold parse
  cases hread : read? s with
  | none => simp
  | some found =>
    cases hfirst : firstRepeated [] found with
    | none =>
      have hnodup := (firstRepeated_eq_none_iff.1 hfirst).1
      simp only [hfirst, Except.ok.injEq, Option.some.injEq]
      constructor
      · rintro rfl
        exact ⟨rfl, hnodup⟩
      · exact fun h => h.1
    | some key =>
      simp only [hfirst, reduceCtorEq, Option.some.injEq, false_iff, not_and]
      rintro rfl hnodup
      have hnone := (@firstRepeated_eq_none_iff [] found).2 ⟨hnodup, by simp⟩
      rw [hfirst] at hnone
      cases hnone

/-- The binding at this position has the key of an earlier one. -/
def RepeatsAt (bindings : List Binding) (i : Nat) : Prop :=
  ∃ binding ∈ bindings[i]?, ∃ j < i, ∃ earlier ∈ bindings[j]?, earlier.key = binding.key

instance (bindings : List Binding) (i : Nat) : Decidable (RepeatsAt bindings i) :=
  inferInstanceAs (Decidable (∃ binding ∈ bindings[i]?, _))

/-- What comes behind a position does not matter to it. -/
private theorem repeatsAt_append_iff {front : List Binding} {i : Nat} (h : i < front.length)
    (back : List Binding) : RepeatsAt (front ++ back) i ↔ RepeatsAt front i := by
  have hsame : ∀ j ≤ i, (front ++ back)[j]? = front[j]? := fun j hj =>
    List.getElem?_append_left (Nat.lt_of_le_of_lt hj h)
  unfold RepeatsAt
  rw [hsame i (Nat.le_refl i)]
  refine exists_congr fun binding => and_congr_right fun _ => exists_congr fun j =>
    and_congr_right fun hj => ?_
  rw [hsame j (Nat.le_of_lt hj)]

/-- Keys are distinct exactly if none is repeated at any position. -/
private theorem nodup_keys_iff {bindings : List Binding} :
    (bindings.map key).Nodup ↔ ∀ i, ¬ RepeatsAt bindings i := by
  rw [List.nodup_iff_getElem?_ne_getElem?]
  constructor
  · rintro h i ⟨binding, hbinding, j, hj, earlier, hearlier, hkey⟩
    have hlength : i < (bindings.map key).length := by
      rw [List.length_map]
      exact (List.getElem?_eq_some_iff.1 hbinding).1
    apply h j i hj hlength
    rw [List.getElem?_map, List.getElem?_map, Option.mem_def.1 hbinding, Option.mem_def.1 hearlier,
      Option.map_some, Option.map_some, hkey]
  · intro h i j hij hj hsame
    rw [List.length_map] at hj
    have hi : i < bindings.length := Nat.lt_trans hij hj
    rw [List.getElem?_map, List.getElem?_map, List.getElem?_eq_getElem hi,
      List.getElem?_eq_getElem hj] at hsame
    exact h j ⟨_, List.getElem?_eq_getElem hj, i, hij, _, List.getElem?_eq_getElem hi,
      Option.some.inj hsame⟩

/-- The key that is found was seen before, or an earlier binding has it; up to there nothing is
found. -/
private theorem firstRepeated_eq_some {seen : List TriggerKey} {bindings : List Binding}
    {key : TriggerKey} (h : firstRepeated seen bindings = some key) :
    ∃ front binding back, bindings = front ++ binding :: back ∧ binding.key = key ∧
      firstRepeated seen front = none ∧ (key ∈ seen ∨ ∃ earlier ∈ front, earlier.key = key) := by
  induction bindings generalizing seen with
  | nil => cases h
  | cons first rest ih =>
    rw [firstRepeated] at h
    by_cases hseen : first.key ∈ seen
    · rw [if_pos (List.contains_iff_mem.2 hseen), Option.some.injEq] at h
      exact ⟨[], first, rest, rfl, h, rfl, .inl (h ▸ hseen)⟩
    · have hpassed : ¬ seen.contains first.key = true := mt List.contains_iff_mem.1 hseen
      rw [if_neg hpassed] at h
      obtain ⟨front, binding, back, rfl, hkey, hnone, hrepeat⟩ := ih h
      refine ⟨first :: front, binding, back, rfl, hkey, ?_, ?_⟩
      · rw [firstRepeated, if_neg hpassed, hnone]
      · -- What was seen meanwhile is the key of `first`.
        rw [List.mem_cons, or_assoc] at hrepeat
        rcases hrepeat with hfirst | hbefore | ⟨earlier, hmem, hearlier⟩
        · exact .inr ⟨first, List.mem_cons_self, hfirst.symm⟩
        · exact .inl hbefore
        · exact .inr ⟨earlier, List.mem_cons_of_mem first hmem, hearlier⟩

/-- The key that is found from the start is the one at the first position that repeats a key. -/
private theorem exists_first_repeat {bindings : List Binding} {key : TriggerKey}
    (h : firstRepeated [] bindings = some key) :
    ∃ i, ∃ binding ∈ bindings[i]?, binding.key = key ∧ RepeatsAt bindings i ∧
      ∀ j < i, ¬ RepeatsAt bindings j := by
  obtain ⟨front, binding, back, rfl, rfl, hnone, hrepeat⟩ := firstRepeated_eq_some h
  have hbinding : (front ++ binding :: back)[front.length]? = some binding := by simp
  refine ⟨front.length, binding, hbinding, rfl, ?_, fun j hj => ?_⟩
  · obtain ⟨earlier, hmem, hkey⟩ := hrepeat.resolve_left List.not_mem_nil
    obtain ⟨j, hj, hearlier⟩ := List.mem_iff_getElem.1 hmem
    refine ⟨binding, hbinding, j, hj, earlier, ?_, hkey⟩
    rw [Option.mem_def, List.getElem?_append_left hj, List.getElem?_eq_getElem hj, hearlier]
  · rw [repeatsAt_append_iff hj]
    exact nodup_keys_iff.1 (firstRepeated_eq_none_iff.1 hnone).1 j

/-- The bindings that a text lists are accepted, as they are, exactly if their keys are distinct.
Otherwise the text is refused for the key at the first position whose key stands at an earlier position
too, however many others are repeated. -/
theorem parse_names_first_repeat {s : String} {bindings : List Binding}
    (h : read? s = some bindings) :
    (parse s = .ok bindings ↔ (bindings.map key).Nodup) ∧
      (¬ (bindings.map key).Nodup →
        ∃ i, ∃ binding ∈ bindings[i]?, RepeatsAt bindings i ∧ (∀ j < i, ¬ RepeatsAt bindings j) ∧
          parse s = .error (.duplicate binding.key)) := by
  refine ⟨parse_eq_ok_iff.trans (and_iff_right h), fun hrepeat => ?_⟩
  cases hfirst : firstRepeated [] bindings with
  | none => exact absurd (firstRepeated_eq_none_iff.1 hfirst).1 hrepeat
  | some key =>
    obtain ⟨i, binding, hbinding, rfl, hat, hbefore⟩ := exists_first_repeat hfirst
    refine ⟨i, binding, hbinding, hat, hbefore, ?_⟩
    rw [parse, h]
    dsimp only
    rw [hfirst]

/-- Two keys of one number, both repeated: the second of them first. -/
def interleaved : List Binding :=
  [⟨⟨.npc, 1⟩, "a"⟩, ⟨⟨.reactor, 1⟩, "b"⟩, ⟨⟨.reactor, 1⟩, "c"⟩, ⟨⟨.npc, 1⟩, "d"⟩]

/-- A file with these bindings. -/
def interleavedText : String :=
  "(bindings: [(kind: Npc, id: 1, script: \"a\"), (kind: Reactor, id: 1, script: \"b\"), " ++
    "(kind: Reactor, id: 1, script: \"c\"), (kind: Npc, id: 1, script: \"d\")])"

/-- Of two repeated keys the one is named whose repetition comes first. -/
theorem parse_names_first_repeat_interleaved :
    read? interleavedText = some interleaved ∧ ¬ (interleaved.map key).Nodup ∧
      parse interleavedText = .error (.duplicate ⟨.reactor, 1⟩) := by
  have hread : read? interleavedText = some interleaved := by decide +kernel
  have hrepeat : ¬ (interleaved.map key).Nodup := by decide
  obtain ⟨i, binding, hbinding, hat, hbefore, hparse⟩ :=
    (parse_names_first_repeat hread).2 hrepeat
  have hposition : i = 2 := by
    have hnone : ∀ j < 2, ¬ RepeatsAt interleaved j := by decide
    have htwo : RepeatsAt interleaved 2 := by decide
    rcases Nat.lt_trichotomy i 2 with hlt | heq | hgt
    · exact absurd hat (hnone i hlt)
    · exact heq
    · exact absurd htwo (hbefore 2 hgt)
  subst hposition
  obtain rfl : _ = binding := Option.mem_some.1 hbinding
  exact ⟨hread, hrepeat, hparse⟩

end Binding
end Encounter
