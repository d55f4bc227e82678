import Encounter.Text.Blank

/-!
# Texts with blanks

Trimming takes blanks off both ends of a text, and a text without blanks at its ends is what is left
of it. The words of a text are the runs between its blanks: a text is cut into those words with which
it is written, however many blanks stand around and between them.
-/

namespace Encounter.Text

/-- Every character is blank. -/
def Blanks (cs : List Char) : Prop := ∀ c ∈ cs, isBlank c = true

/-- No character is blank. -/
def Unblank (cs : List Char) : Prop := ∀ c ∈ cs, isBlank c = false

/-- The text with blanks around it. -/
def Padded (core text : List Char) : Prop :=
  ∃ front back, Blanks front ∧ Blanks back ∧ text = front ++ core ++ back

/-- A text with the property stands there, with blanks around it. -/
def Stands (p : List Char → Prop) (text : List Char) : Prop := ∃ core, Padded core text ∧ p core

/-- The words with blanks around and between them. -/
inductive Spaced : List (List Char) → List Char → Prop where
  /-- No word, and blanks only. -/
  | nil {gap : List Char} (hgap : Blanks gap) : Spaced [] gap
  /-- A word behind blanks; other words stand apart from it. -/
  | cons {gap word rest : List Char} {words : List (List Char)} (hgap : Blanks gap)
      (hne : word ≠ []) (hword : Unblank word) (hrest : Spaced words rest)
      (hapart : rest.head?.all isBlank) : Spaced (word :: words) (gap ++ word ++ rest)

@[simp] theorem blanks_nil : Blanks [] := List.forall_mem_nil _

@[simp] theorem unblank_nil : Unblank [] := List.forall_mem_nil _

theorem Unblank.reverse {cs : List Char} (h : Unblank cs) : Unblank cs.reverse :=
  fun c hc => h c (List.mem_reverse.1 hc)

theorem Blanks.reverse {cs : List Char} (h : Blanks cs) : Blanks cs.reverse :=
  fun c hc => h c (List.mem_reverse.1 hc)

/-- Only the capital letters are changed by writing them in lower case. -/
private theorem toLower_cases (c : Char) :
    c.toLower = c ∨ ∃ n, 65 ≤ n ∧ n < 91 ∧ c = Char.ofNat n := by
  by_cases hupper : c.val ≥ 'A'.val ∧ c.val ≤ 'Z'.val
  · have hlow : 65 ≤ c.toNat := UInt32.le_iff_toNat_le.1 hupper.1
    have hhigh : c.toNat ≤ 90 := UInt32.le_iff_toNat_le.1 hupper.2
    exact .inr ⟨c.toNat, hlow, Nat.lt_succ_of_le hhigh, (Char.ofNat_toNat c).symm⟩
  · exact .inl (dif_neg hupper)

/-- Case does not matter to blanks. -/
theorem isBlank_toLower (c : Char) : isBlank c.toLower = isBlank c := by
  have hall : ∀ n, n < 91 → 65 ≤ n →
      isBlank (Char.ofNat n).toLower = isBlank (Char.ofNat n) := by decide
  obtain hc | ⟨n, hlow, hhigh, rfl⟩ := toLower_cases c
  · rw [hc]
  · exact hall n hhigh hlow

theorem Unblank.map_toLower {cs : List Char} (h : Unblank cs) : Unblank (cs.map Char.toLower) := by
  intro c hc
  obtain ⟨d, hd, rfl⟩ := List.mem_map.1 hc
  rw [isBlank_toLower, h d hd]

private theorem blanks_append {front back : List Char} :
    Blanks (front ++ back) ↔ Blanks front ∧ Blanks back := List.forall_mem_append

private theorem dropBlanks_append {front : List Char} (h : Blanks front) (rest : List Char) :
    dropBlanks (front ++ rest) = dropBlanks rest := List.dropWhile_append_of_pos h

private theorem dropBlanks_of_unblank {core back : List Char} (h : Unblank core)
    (hback : Blanks back) :
    dropBlanks (core ++ back) = if core = [] then [] else core ++ back := by
  cases core with
  | nil =>
    rw [← List.append_nil ([] ++ back), List.nil_append, dropBlanks_append hback]
    rfl
  | cons c core =>
    have hc : ¬ isBlank c = true := by simp [h c List.mem_cons_self]
    rw [if_neg (List.cons_ne_nil c core)]
    exact List.dropWhile_cons_of_neg hc

/-- Trimming takes blanks off the back, once those in front are gone. -/
theorem exists_dropBlanks_eq (cs : List Char) :
    ∃ back, Blanks back ∧ dropBlanks cs = trimChars cs ++ back := by
  have hback := List.takeWhile_append_dropWhile (p := isBlank) (l := (dropBlanks cs).reverse)
  refine ⟨((dropBlanks cs).reverse.takeWhile isBlank).reverse, fun c hc => ?_, ?_⟩
  · exact List.all_eq_true.1 List.all_takeWhile c (List.mem_reverse.1 hc)
  · rw [trimChars, ← List.reverse_append, dropBlanks.eq_1 (dropBlanks cs).reverse, hback,
      List.reverse_reverse]

/-- A text is what trimming leaves of it, with blanks around it. -/
private theorem padded_trimChars (cs : List Char) : Padded (trimChars cs) cs := by
  obtain ⟨back, hback, hdrop⟩ := exists_dropBlanks_eq cs
  refine ⟨cs.takeWhile isBlank, back, List.all_eq_true.1 List.all_takeWhile, hback, ?_⟩
  rw [List.append_assoc, ← hdrop]
  exact List.takeWhile_append_dropWhile.symm

/-- What has no blanks is left when the blanks around it are taken off. -/
private theorem Padded.trimChars_eq {core text : List Char} (h : Padded core text)
    (hcore : Unblank core) :
    trimChars text = core := by
  obtain ⟨front, back, hfront, hback, rfl⟩ := h
  rw [trimChars, List.append_assoc, dropBlanks_append hfront, dropBlanks_of_unblank hcore hback]
  split
  · next hempty =>
    rw [hempty]
    rfl
  · rw [List.reverse_append, dropBlanks_append hback.reverse, ← List.append_nil core.reverse,
      dropBlanks_of_unblank hcore.reverse blanks_nil]
    split <;> simp_all

/-- Nothing is left exactly of blanks. -/
theorem trim_eq_empty_iff (s : String) : trim s = "" ↔ Blanks s.toList := by
  constructor
  · intro h
    obtain ⟨front, back, hfront, hback, htext⟩ := padded_trimChars s.toList
    have hnone : trimChars s.toList = [] := String.ofList_injective h
    rw [htext, hnone, List.append_nil]
    exact blanks_append.2 ⟨hfront, hback⟩
  · intro h
    have hpadded : Padded [] s.toList := ⟨s.toList, [], h, blanks_nil, by simp⟩
    rw [trim, hpadded.trimChars_eq unblank_nil]

variable {word cs rest : List Char}

private theorem Spaced.cons_blank {words : List (List Char)} (h : Spaced words cs) {c : Char}
    (hc : isBlank c = true) : Spaced words (c :: cs) := by
  cases h with
  | nil hgap => exact .nil (List.forall_mem_cons.2 ⟨hc, hgap⟩)
  | cons hgap hne hword hrest hapart =>
    exact .cons (List.forall_mem_cons.2 ⟨hc, hgap⟩) hne hword hrest hapart

private theorem wordsFrom_append (word : List Char) {front : List Char} (h : Unblank front)
    (rest : List Char) : wordsFrom word (front ++ rest) = wordsFrom (front.reverse ++ word) rest := by
  induction front generalizing word with
  | nil => rfl
  | cons c front ih =>
    obtain ⟨hc, hfront⟩ := List.forall_mem_cons.1 h
    rw [List.cons_append, wordsFrom, hc, if_neg Bool.false_ne_true, ih (c :: word) hfront]
    simp

private theorem wordsFrom_blanks {gap : List Char} (h : Blanks gap) (rest : List Char) :
    wordsFrom [] (gap ++ rest) = wordsFrom [] rest := by
  induction gap with
  | nil => rfl
  | cons c gap ih =>
    obtain ⟨hc, hgap⟩ := List.forall_mem_cons.1 h
    rw [List.cons_append, wordsFrom, if_pos hc, if_pos List.isEmpty_nil, ih hgap]

/-- A word is over at a blank and at the end. -/
private theorem wordsFrom_apart (hne : word ≠ []) (hrest : rest.head?.all isBlank) :
    wordsFrom word rest = word.reverse :: wordsFrom [] rest := by
  have hword : ¬ word.isEmpty = true := by simpa using hne
  cases rest with
  | nil => simp [wordsFrom, hne]
  | cons c rest =>
    have hc : isBlank c = true := by simpa using hrest
    rw [wordsFrom, if_pos hc, if_neg hword, wordsFrom, if_pos hc, if_pos List.isEmpty_nil]

/-- The words that are read, with the one begun before, stand in the text. -/
private theorem spaced_wordsFrom (hword : Unblank word) (cs : List Char) :
    Spaced (wordsFrom word cs) (word.reverse ++ cs) := by
  induction cs generalizing word with
  | nil =>
    by_cases hne : word = []
    · subst hne
      exact .nil blanks_nil
    · simpa [wordsFrom, hne] using
        Spaced.cons blanks_nil (by simpa using hne) hword.reverse (.nil blanks_nil) rfl
  | cons c cs ih =>
    cases hc : isBlank c with
    | true =>
      have hrest : Spaced (wordsFrom [] cs) (c :: cs) := (ih unblank_nil).cons_blank hc
      by_cases hne : word = []
      · subst hne
        simpa [wordsFrom, hc] using hrest
      · simpa [wordsFrom, hne, hc] using
          Spaced.cons blanks_nil (by simpa using hne) hword.reverse hrest (by simp [hc])
    | false =>
      have hmore : Unblank (c :: word) := List.forall_mem_cons.2 ⟨hc, hword⟩
      simpa [wordsFrom, hc] using ih hmore

/-- A text is cut into the words with which it is written. -/
theorem wordsFrom_eq_iff {words : List (List Char)} : wordsFrom [] cs = words ↔ Spaced words cs := by
  constructor
  · rintro rfl
    exact spaced_wordsFrom unblank_nil cs
  · intro h
    induction h with
    | nil hgap => simpa [wordsFrom] using wordsFrom_blanks hgap []
    | cons hgap hne hword _ hapart ih =>
      rw [List.append_assoc, wordsFrom_blanks hgap, wordsFrom_append [] hword, List.append_nil,
        wordsFrom_apart (by simpa using hne) hapart, List.reverse_reverse, ih]

theorem Spaced.of_mem {words : List (List Char)} (h : Spaced words cs) :
    ∀ word ∈ words, word ≠ [] ∧ Unblank word := by
  induction h with
  | nil hgap => exact List.forall_mem_nil _
  | cons _ hne hword _ _ ih => exact List.forall_mem_cons.2 ⟨⟨hne, hword⟩, ih⟩

/-- Words may be written with one blank between them. -/
theorem spaced_intercalate {words : List (List Char)}
    (h : ∀ word ∈ words, word ≠ [] ∧ Unblank word) : Spaced words ([' '].intercalate words) := by
  induction words with
  | nil => exact .nil blanks_nil
  | cons word words ih =>
    obtain ⟨⟨hne, hword⟩, hwords⟩ := List.forall_mem_cons.1 h
    cases words with
    | nil => simpa using Spaced.cons blanks_nil hne hword (.nil blanks_nil) rfl
    | cons next words =>
      have hrest := (ih hwords).cons_blank (c := ' ') (by decide)
      simpa [List.intercalate] using Spaced.cons blanks_nil hne hword hrest rfl

theorem words_eq_iff {s : String} {words : List String} :
    Text.words s = words ↔ Spaced (words.map String.toList) s.toList := by
  rw [← wordsFrom_eq_iff, Text.words]
  constructor
  · rintro rfl
    simp [Function.comp_def]
  · intro h
    rw [h]
    simp [Function.comp_def]

end Encounter.Text
