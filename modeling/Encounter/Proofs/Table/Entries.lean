import Encounter.Table

/-!
# Entries of a table up to their order

Counting over a table does not depend on the order of its entries. So an insertion may be taken to
put its entry in front, and a bound key to stand in front of everything else: whatever is counted
or collected over the entries follows from these two permutations.
-/

namespace Encounter
namespace Table

universe u v

variable {κ : Type u} {α : Type v} [Ord κ] [Std.TransOrd κ] [Std.LawfulEqOrd κ]

omit [Std.LawfulEqOrd κ] in
/-- No entry is listed twice. -/
theorem nodup_entries (t : Table κ α) : t.entries.Nodup := by
  apply t.ascending.imp
  intro a b hab he
  subst he
  simp [Std.ReflCmp.compare_self] at hab

omit [Std.TransOrd κ] [Std.LawfulEqOrd κ] in
/-- Keys come in strictly ascending order. -/
theorem ascending_keys (t : Table κ α) : t.keys.Pairwise fun a b => compare a b = .lt :=
  List.pairwise_map.2 t.ascending

omit [Std.TransOrd κ] [Std.LawfulEqOrd κ] in
/-- An erasure leaves no more entries to count. -/
theorem countP_erase_le (t : Table κ α) (k : κ) (p : κ × α → Bool) :
    (t.erase k).entries.countP p ≤ t.entries.countP p :=
  List.filter_sublist.countP_le

omit [Std.TransOrd κ] in
/-- A value is one that is found under some key. -/
theorem mem_values {t : Table κ α} {a : α} : a ∈ t.values ↔ ∃ k, t.find? k = some a := by
  simp only [values, List.mem_map, Prod.exists, exists_eq_right, find?_eq_some_iff]

section Lookup

variable [DecidableEq κ]

omit [Std.TransOrd κ] in
/-- An erasure keeps the entries of the other keys. -/
theorem mem_entries_erase {t : Table κ α} {k : κ} {e : κ × α} :
    e ∈ (t.erase k).entries ↔ e ∈ t.entries ∧ e.1 ≠ k := by
  rw [← find?_eq_some_iff (k := e.1) (a := e.2), ← find?_eq_some_iff (k := e.1) (a := e.2),
    find?_erase]
  by_cases h : e.1 = k <;> simp [h]

/-- What is found after an insertion is what was stored or what another key had. -/
theorem find?_insert_eq_some_iff {t : Table κ α} {k k' : κ} {a b : α} :
    (t.insert k a).find? k' = some b ↔ k' = k ∧ b = a ∨ k' ≠ k ∧ t.find? k' = some b := by
  rw [find?_insert]
  by_cases h : k' = k <;> simp [h, eq_comm]

/-- An insertion adds its entry to those of the other keys. -/
theorem perm_insert (t : Table κ α) (k : κ) (a : α) :
    (t.insert k a).entries.Perm ((k, a) :: (t.erase k).entries) := by
  apply (List.perm_ext_iff_of_nodup (nodup_entries _) _).2
  · intro e
    rw [List.mem_cons, mem_entries_erase, ← find?_eq_some_iff (k := e.1) (a := e.2),
      ← find?_eq_some_iff (k := e.1) (a := e.2), find?_insert]
    obtain ⟨k', a'⟩ := e
    by_cases h : k' = k
    · simp [h, eq_comm]
    · simp [h]
  · apply List.nodup_cons.2
    refine ⟨?_, nodup_entries _⟩
    simp [mem_entries_erase]

/-- Without an entry for the key, an erasure changes nothing. -/
theorem erase_of_find?_eq_none {t : Table κ α} {k : κ} (h : t.find? k = none) : t.erase k = t := by
  apply ext_find?
  intro k'
  rw [find?_erase]
  by_cases hk : k' = k
  · rw [hk, h, if_pos rfl]
  · rw [if_neg hk]

/-- Storing what a key has already changes nothing. -/
theorem insert_eq_self {t : Table κ α} {k : κ} {a : α} (h : t.find? k = some a) :
    t.insert k a = t := by
  apply ext_find?
  intro k'
  rw [find?_insert]
  by_cases hk : k' = k
  · rw [hk, h, if_pos rfl]
  · rw [if_neg hk]

/-- The entries are that of a bound key and those of the other keys. -/
theorem perm_of_find?_eq_some {t : Table κ α} {k : κ} {a : α} (h : t.find? k = some a) :
    t.entries.Perm ((k, a) :: (t.erase k).entries) := by
  have hp := perm_insert t k a
  rwa [insert_eq_self h] at hp

/-- Changing the value of a bound key is inserting the changed value. -/
theorem modify_eq_insert {t : Table κ α} {k : κ} {a : α} (f : α → α) (h : t.find? k = some a) :
    t.modify k f = t.insert k (f a) := by
  apply ext_find?
  intro k'
  rw [find?_modify, find?_insert, h, Option.map_some]

/-- Without an entry for the key, nothing is changed. -/
theorem modify_of_find?_eq_none {t : Table κ α} {k : κ} (f : α → α) (h : t.find? k = none) :
    t.modify k f = t := by
  apply ext_find?
  intro k'
  rw [find?_modify]
  by_cases hk : k' = k
  · rw [hk, h, if_pos rfl, Option.map_none]
  · rw [if_neg hk]

/-- What is stored under a key does not matter once it is replaced. -/
theorem insert_insert_self (t : Table κ α) (k : κ) (a b : α) :
    (t.insert k a).insert k b = t.insert k b := by
  apply ext_find?
  intro k'
  simp only [find?_insert]
  split <;> rfl

/-- Nor does it once it is erased. -/
theorem erase_insert_self (t : Table κ α) (k : κ) (a : α) : (t.insert k a).erase k = t.erase k := by
  apply ext_find?
  intro k'
  simp only [find?_erase, find?_insert]
  split <;> rfl

omit [Std.TransOrd κ] in
/-- What is found after a change is the value of before, changed or as it was. -/
theorem find?_modify_eq_map (t : Table κ α) (k k' : κ) (f : α → α) :
    (t.modify k f).find? k' = (t.find? k').map fun a => if k' = k then f a else a := by
  rw [find?_modify]
  by_cases h : k' = k <;> simp [h]

/-- Two changes of values may be swapped if they may be on every value. -/
theorem modify_modify_comm (t : Table κ α) (k k' : κ) {f g : α → α} (h : ∀ a, f (g a) = g (f a)) :
    (t.modify k f).modify k' g = (t.modify k' g).modify k f := by
  apply ext_find?
  intro other
  simp only [find?_modify_eq_map, Option.map_map]
  congr 1
  funext a
  dsimp only [Function.comp]
  split <;> split <;> simp [h]

/-- A change of a value and an erasure may be swapped. -/
theorem erase_modify (t : Table κ α) (k k' : κ) (f : α → α) :
    (t.modify k f).erase k' = (t.erase k').modify k f := by
  apply ext_find?
  intro other
  simp only [find?_modify_eq_map, find?_erase]
  split <;> rfl

/-- A change of a value and an insertion under another key may be swapped. -/
theorem insert_modify_of_ne (t : Table κ α) {k k' : κ} (h : k' ≠ k) (f : α → α) (a : α) :
    (t.modify k f).insert k' a = (t.insert k' a).modify k f := by
  apply ext_find?
  intro other
  simp only [find?_modify_eq_map, find?_insert]
  by_cases hk' : other = k' <;> simp [hk', h]

/-- An insertion counts its own entry and those of the other keys. -/
theorem countP_insert (t : Table κ α) (k : κ) (a : α) (p : κ × α → Bool) :
    (t.insert k a).entries.countP p =
      (t.erase k).entries.countP p + if p (k, a) then 1 else 0 := by
  rw [(perm_insert t k a).countP_eq, List.countP_cons]

/-- A bound key counts for itself. -/
theorem countP_of_find?_eq_some {t : Table κ α} {k : κ} {a : α} (h : t.find? k = some a)
    (p : κ × α → Bool) :
    t.entries.countP p = (t.erase k).entries.countP p + if p (k, a) then 1 else 0 := by
  rw [(perm_of_find?_eq_some h).countP_eq, List.countP_cons]

end Lookup

end Table
end Encounter
