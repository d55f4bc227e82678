import Mathlib.Data.List.Dedup
import Encounter.Proofs.Table.Entries

/-!
# Filling a table

Pairs are stored one after the other, so the last pair of a key is the one that counts. What the
table holds under other keys stays, and each key is listed once, however often it was stored.
-/

namespace Encounter
namespace Table

universe u v

variable {κ : Type u} {α : Type v} [DecidableEq κ]

/-- The value of the last pair with key `k`. -/
def lastOf? (k : κ) (pairs : List (κ × α)) : Option α :=
  (pairs.reverse.find? fun pair => pair.1 = k).map Prod.snd

theorem lastOf?_append (k : κ) (pairs others : List (κ × α)) :
    lastOf? k (pairs ++ others) = (lastOf? k others).or (lastOf? k pairs) := by
  simp only [lastOf?, List.reverse_append, List.find?_append, Option.map_or]

theorem lastOf?_cons (k : κ) (pair : κ × α) (pairs : List (κ × α)) :
    lastOf? k (pair :: pairs) =
      (lastOf? k pairs).or (if pair.1 = k then some pair.2 else none) := by
  have hone : lastOf? k [pair] = if pair.1 = k then some pair.2 else none := by
    by_cases h : pair.1 = k <;> simp [lastOf?, h]
  rw [← hone]
  exact lastOf?_append k [pair] pairs

/-- A key has a last pair exactly if it has one at all. -/
theorem isSome_lastOf?_iff {k : κ} {pairs : List (κ × α)} :
    (lastOf? k pairs).isSome ↔ k ∈ pairs.map Prod.fst := by
  induction pairs with
  | nil => simp [lastOf?]
  | cons pair pairs ih =>
    rw [lastOf?_cons, Option.isSome_or, Bool.or_eq_true, ih, List.map_cons, List.mem_cons, or_comm]
    by_cases h : pair.1 = k
    · simp [h]
    · simp [h, Ne.symm h]

variable [Ord κ] [Std.TransOrd κ] [Std.LawfulEqOrd κ]

/-- Stores pairs from left to right: a later pair replaces an earlier one. -/
def insertAll (t : Table κ α) (pairs : List (κ × α)) : Table κ α :=
  pairs.foldl (fun t pair => t.insert pair.1 pair.2) t

/-- A key has the value of its last pair, or else what it had before. -/
theorem find?_insertAll (t : Table κ α) (pairs : List (κ × α)) (k : κ) :
    (t.insertAll pairs).find? k = (lastOf? k pairs).or (t.find? k) := by
  induction pairs generalizing t with
  | nil => rfl
  | cons pair pairs ih =>
    show ((t.insert pair.1 pair.2).insertAll pairs).find? k = _
    rw [ih, find?_insert, lastOf?_cons, Option.or_assoc]
    by_cases h : pair.1 = k
    · rw [if_pos h.symm, if_pos h, Option.some_or]
    · rw [if_neg (Ne.symm h), if_neg h, Option.none_or]

theorem mem_keys_insertAll {t : Table κ α} {pairs : List (κ × α)} {k : κ} :
    k ∈ (t.insertAll pairs).keys ↔ k ∈ t.keys ∨ k ∈ pairs.map Prod.fst := by
  rw [← isSome_find?_iff, find?_insertAll, Option.isSome_or, Bool.or_eq_true, isSome_lastOf?_iff,
    isSome_find?_iff, or_comm]

omit [DecidableEq κ] [Std.LawfulEqOrd κ] in
/-- No key is listed twice. -/
theorem nodup_keys (t : Table κ α) : t.keys.Nodup := by
  apply t.ascending_keys.imp
  intro a b hab he
  subst he
  simp [Std.ReflCmp.compare_self] at hab

/-- There are as many entries as there are distinct keys, old and new. -/
theorem size_insertAll (t : Table κ α) (pairs : List (κ × α)) :
    (t.insertAll pairs).size = (t.keys ++ pairs.map Prod.fst).dedup.length := by
  have hperm : (t.insertAll pairs).keys.Perm (t.keys ++ pairs.map Prod.fst).dedup := by
    apply (List.perm_ext_iff_of_nodup (nodup_keys _) (List.nodup_dedup _)).2
    intro k
    rw [mem_keys_insertAll, List.mem_dedup, List.mem_append]
  rw [← hperm.length_eq, keys, List.length_map]
  rfl

end Table
end Encounter
