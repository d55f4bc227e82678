/-!
# Finite tables in key order

A table keeps one entry per key, in strictly ascending key order, so two tables that answer every
lookup alike are equal (`Table.ext_find?`). Each operation has one lookup lemma; the rest of the
library reads tables only through `find?`.
-/

namespace Encounter

universe u v

/-- Strict ascent by first component. -/
abbrev KeyAscent {κ : Type u} {α : Type v} [Ord κ] (entries : List (κ × α)) : Prop :=
  entries.Pairwise fun a b => compare a.1 b.1 = .lt

/-- A finite map, kept as the list of its entries in ascending key order. -/
structure Table (κ : Type u) (α : Type v) [Ord κ] where
  /-- The entries, smallest key first. -/
  entries : List (κ × α)
  /-- Each key occurs once, after all smaller keys. -/
  ascending : KeyAscent entries

namespace Table

variable {κ : Type u} {α : Type v} [Ord κ]

/-- The table without entries. -/
def empty : Table κ α := ⟨[], List.Pairwise.nil⟩

instance : Inhabited (Table κ α) := ⟨empty⟩
instance : EmptyCollection (Table κ α) := ⟨empty⟩

/-- Keys in ascending order. -/
def keys (t : Table κ α) : List κ := t.entries.map Prod.fst

/-- Values in the order of their keys. -/
def values (t : Table κ α) : List α := t.entries.map Prod.snd

/-- The number of keys. -/
def size (t : Table κ α) : Nat := t.entries.length

/-- True for the empty table only. -/
def isEmpty (t : Table κ α) : Bool := t.entries.isEmpty

/-- The value of the first entry with key `k`. -/
def lookup (k : κ) : List (κ × α) → Option α
  | [] => none
  | (k', a) :: rest => if compare k k' = .eq then some a else lookup k rest

/-- The value stored under `k`. -/
def find? (t : Table κ α) (k : κ) : Option α := lookup k t.entries

/-- Is `k` a key? -/
def contains (t : Table κ α) (k : κ) : Bool := (t.find? k).isSome

/-- Puts `a` under `k` at its place in an ascending list. -/
def place (k : κ) (a : α) : List (κ × α) → List (κ × α)
  | [] => [(k, a)]
  | (k', a') :: rest =>
    match compare k k' with
    | .lt => (k, a) :: (k', a') :: rest
    | .eq => (k, a) :: rest
    | .gt => (k', a') :: place k a rest

/-- A key of the list after placing is the new key or an old one. -/
theorem mem_place {k : κ} {a : α} {entries : List (κ × α)} {e : κ × α}
    (h : e ∈ place k a entries) : e = (k, a) ∨ e ∈ entries := by
  induction entries with
  | nil => simpa [place] using h
  | cons head rest ih =>
    rw [place] at h
    split at h <;> grind

section Lawful

variable [Std.TransOrd κ] [Std.LawfulEqOrd κ]

omit [Std.LawfulEqOrd κ] in
private theorem lt_of_compare_gt {a b : κ} (h : compare a b = .gt) : compare b a = .lt := by
  rw [Std.OrientedOrd.eq_swap, h]
  rfl

/-- Placing keeps the list ascending. -/
theorem keyAscent_place {k : κ} {a : α} {entries : List (κ × α)} (h : KeyAscent entries) :
    KeyAscent (place k a entries) := by
  induction entries with
  | nil => exact List.pairwise_singleton _ _
  | cons head rest ih =>
    obtain ⟨k', a'⟩ := head
    have hr := List.pairwise_cons.1 h
    rw [place]
    split
    · next hlt =>
      refine List.pairwise_cons.2 ⟨fun e he => ?_, h⟩
      rcases List.mem_cons.1 he with rfl | he
      · exact hlt
      · exact Std.TransCmp.lt_trans hlt (hr.1 e he)
    · next heq =>
      cases Std.LawfulEqCmp.eq_of_compare heq
      exact List.pairwise_cons.2 hr
    · next hgt =>
      refine List.pairwise_cons.2 ⟨fun e he => ?_, ih hr.2⟩
      rcases mem_place he with rfl | he
      · exact lt_of_compare_gt hgt
      · exact hr.1 e he

/-- Stores `a` under `k`, replacing what was there. -/
def insert (t : Table κ α) (k : κ) (a : α) : Table κ α :=
  ⟨place k a t.entries, keyAscent_place t.ascending⟩

/-- The table built by inserting the pairs from left to right: a later pair replaces an earlier one. -/
def ofList (pairs : List (κ × α)) : Table κ α :=
  pairs.foldl (fun t p => t.insert p.1 p.2) empty

end Lawful

/-- Drops the entry of `k`, if there is one. -/
def erase (t : Table κ α) (k : κ) : Table κ α :=
  ⟨t.entries.filter fun e => compare k e.1 != .eq, t.ascending.filter _⟩

/-- Applies `f` to every value, keeping the keys. -/
def mapValues {β : Type v} (t : Table κ α) (f : α → β) : Table κ β :=
  ⟨t.entries.map fun e => (e.1, f e.2), List.pairwise_map.2 t.ascending⟩

/-- Changes the value under `k`, if there is one. -/
def modify (t : Table κ α) (k : κ) (f : α → α) : Table κ α :=
  ⟨t.entries.map fun e => (e.1, if compare k e.1 = .eq then f e.2 else e.2),
    List.pairwise_map.2 t.ascending⟩

@[simp] theorem find?_empty (k : κ) : (empty : Table κ α).find? k = none := rfl

/-- Mapping the values maps what is found. -/
theorem find?_mapValues {β : Type v} (t : Table κ α) (f : α → β) (k : κ) :
    (t.mapValues f).find? k = (t.find? k).map f := by
  obtain ⟨entries, _⟩ := t
  simp only [find?, mapValues]
  induction entries with
  | nil => rfl
  | cons head rest ih =>
    simp only [List.map_cons, lookup]
    split
    · rfl
    · exact ih (List.pairwise_cons.1 ‹_›).2

section Lookup

variable [Std.TransOrd κ] [Std.LawfulEqOrd κ]

omit [Std.TransOrd κ] in
private theorem compare_eq_iff {a b : κ} : compare a b = .eq ↔ a = b :=
  Std.LawfulEqCmp.compare_eq_iff_eq

omit [Std.TransOrd κ] in
private theorem lookup_eq_some_iff {entries : List (κ × α)} (h : KeyAscent entries) {k : κ} {a : α} :
    lookup k entries = some a ↔ (k, a) ∈ entries := by
  induction entries with
  | nil => simp [lookup]
  | cons head rest ih =>
    obtain ⟨k', a'⟩ := head
    have hr := List.pairwise_cons.1 h
    rw [lookup]
    split
    · next heq =>
      cases Std.LawfulEqCmp.eq_of_compare heq
      constructor
      · rintro ⟨⟩
        exact List.mem_cons_self
      · intro hm
        rcases List.mem_cons.1 hm with he | hm
        · cases he
          rfl
        · exact absurd (hr.1 _ hm) (by simp [Std.ReflCmp.compare_self])
    · next hne =>
      rw [ih hr.2, List.mem_cons]
      refine (or_iff_right ?_).symm
      rintro ⟨⟩
      exact hne Std.ReflCmp.compare_self

omit [Std.TransOrd κ] in
/-- Lookup finds exactly the entries of the table. -/
theorem find?_eq_some_iff {t : Table κ α} {k : κ} {a : α} :
    t.find? k = some a ↔ (k, a) ∈ t.entries :=
  lookup_eq_some_iff t.ascending

omit [Std.TransOrd κ] in
/-- A key is bound exactly when it is listed. -/
theorem isSome_find?_iff {t : Table κ α} {k : κ} : (t.find? k).isSome ↔ k ∈ t.keys := by
  rw [Option.isSome_iff_exists, keys, List.mem_map]
  constructor
  · rintro ⟨a, ha⟩
    exact ⟨(k, a), find?_eq_some_iff.1 ha, rfl⟩
  · rintro ⟨⟨k', a⟩, hm, rfl⟩
    exact ⟨a, find?_eq_some_iff.2 hm⟩

variable [DecidableEq κ]

omit [Std.TransOrd κ] in
private theorem lookup_place (k k' : κ) (a : α) (entries : List (κ × α)) :
    lookup k' (place k a entries) = if k' = k then some a else lookup k' entries := by
  induction entries with
  | nil => simp only [place, lookup, compare_eq_iff]
  | cons head rest ih =>
    obtain ⟨k₁, a₁⟩ := head
    rw [place]
    split
    · simp only [lookup, compare_eq_iff]
    · next heq =>
      cases Std.LawfulEqCmp.eq_of_compare heq
      simp only [lookup, compare_eq_iff]
      split <;> rfl
    · next hgt =>
      have hne : k ≠ k₁ := fun h => by simp [compare_eq_iff.2 h] at hgt
      simp only [lookup, compare_eq_iff, ih]
      grind

/-- After an insertion the new key has the new value; other keys keep theirs. -/
theorem find?_insert (t : Table κ α) (k k' : κ) (a : α) :
    (t.insert k a).find? k' = if k' = k then some a else t.find? k' :=
  lookup_place k k' a t.entries

@[simp] theorem find?_insert_self (t : Table κ α) (k : κ) (a : α) :
    (t.insert k a).find? k = some a := by simp [find?_insert]

omit [Std.TransOrd κ] in
/-- After an erasure the key is unbound; other keys keep their values. -/
theorem find?_erase (t : Table κ α) (k k' : κ) :
    (t.erase k).find? k' = if k' = k then none else t.find? k' := by
  refine Option.ext fun a => ?_
  rw [find?_eq_some_iff, erase, List.mem_filter]
  by_cases h : k' = k
  · subst h
    simp [Std.ReflCmp.compare_self]
  · have : compare k k' ≠ .eq := fun heq => h (Std.LawfulEqCmp.eq_of_compare heq).symm
    simp [h, this, find?_eq_some_iff]

omit [Std.TransOrd κ] in
@[simp] theorem find?_erase_self (t : Table κ α) (k : κ) : (t.erase k).find? k = none := by
  simp [find?_erase]

omit [Std.TransOrd κ] in
/-- Changing one value changes what is found under its key only. -/
theorem find?_modify (t : Table κ α) (k k' : κ) (f : α → α) :
    (t.modify k f).find? k' = if k' = k then (t.find? k).map f else t.find? k' := by
  obtain ⟨entries, _⟩ := t
  simp only [find?, modify]
  induction entries with
  | nil => simp [lookup]
  | cons head rest ih =>
    have ih := ih (List.pairwise_cons.1 ‹_›).2
    simp only [List.map_cons, lookup, compare_eq_iff] at ih ⊢
    grind

omit [Std.LawfulEqOrd κ] [DecidableEq κ] in
private theorem entries_ext {l₁ l₂ : List (κ × α)} (h₁ : KeyAscent l₁) (h₂ : KeyAscent l₂)
    (h : ∀ e, e ∈ l₁ ↔ e ∈ l₂) : l₁ = l₂ := by
  induction l₁ generalizing l₂ with
  | nil =>
    cases l₂ with
    | nil => rfl
    | cons b l₂ => exact absurd ((h b).2 List.mem_cons_self) List.not_mem_nil
  | cons a l₁ ih =>
    cases l₂ with
    | nil => exact absurd ((h a).1 List.mem_cons_self) List.not_mem_nil
    | cons b l₂ =>
      have p₁ := List.pairwise_cons.1 h₁
      have p₂ := List.pairwise_cons.1 h₂
      have irrefl : ∀ c : κ × α, compare c.1 c.1 ≠ .lt := fun c => by
        simp [Std.ReflCmp.compare_self]
      have hab : a = b := by
        rcases List.mem_cons.1 ((h a).1 List.mem_cons_self) with hab | ha
        · exact hab
        · rcases List.mem_cons.1 ((h b).2 List.mem_cons_self) with hba | hb
          · exact hba.symm
          · exact absurd (Std.TransCmp.lt_trans (p₁.1 b hb) (p₂.1 a ha)) (irrefl a)
      subst hab
      refine congrArg (a :: ·) (ih p₁.2 p₂.2 fun e => ⟨fun he => ?_, fun he => ?_⟩)
      · rcases List.mem_cons.1 ((h e).1 (List.mem_cons_of_mem _ he)) with rfl | he'
        · exact absurd (p₁.1 _ he) (irrefl _)
        · exact he'
      · rcases List.mem_cons.1 ((h e).2 (List.mem_cons_of_mem _ he)) with rfl | he'
        · exact absurd (p₂.1 _ he) (irrefl _)
        · exact he'

omit [DecidableEq κ] in
/-- Tables that answer every lookup alike are equal. -/
theorem ext_find? {t₁ t₂ : Table κ α} (h : ∀ k, t₁.find? k = t₂.find? k) : t₁ = t₂ := by
  have he : t₁.entries = t₂.entries := entries_ext t₁.ascending t₂.ascending fun e => by
    rw [← find?_eq_some_iff (k := e.1) (a := e.2), h, find?_eq_some_iff]
  cases t₁
  cases t₂
  cases he
  rfl

end Lookup

end Table

end Encounter
