import Encounter.Text.Lines
import Encounter.Proofs.Text.Blank
import Mathlib.Data.List.Infix

/-!
# Lines of a text

A text without a line feed is one line, and a line feed ends the line before it. So of the lines at the
beginning of a text its first line shows the first one only: it shows all that are not blank exactly if
the others are blank (`hasInOrder_firstLine_iff`).
-/

namespace Encounter.Text

/-- The parts stand in the text one behind the other. -/
inductive HasInOrder : List (List Char) → List Char → Prop where
  | nil {text : List Char} : HasInOrder [] text
  | cons {part back : List Char} {parts : List (List Char)} (front : List Char)
      (h : HasInOrder parts back) : HasInOrder (part :: parts) (front ++ (part ++ back))

namespace HasInOrder

variable {parts : List (List Char)} {text : List Char}

/-- There is room for all parts. -/
theorem length_le (h : HasInOrder parts text) : parts.flatten.length ≤ text.length := by
  induction h with
  | nil => exact Nat.zero_le _
  | cons front _ ih =>
    simp only [List.flatten_cons, List.length_append]
    omega

/-- Each part stands in the text. -/
theorem isInfix (h : HasInOrder parts text) : ∀ part ∈ parts, part <:+: text := by
  induction h with
  | nil => exact List.forall_mem_nil _
  | @cons part back parts front _ ih =>
    refine List.forall_mem_cons.2 ⟨⟨front, back, List.append_assoc _ _ _⟩, fun other hother => ?_⟩
    have hback : back <:+: front ++ (part ++ back) :=
      ((List.suffix_append part back).trans (List.suffix_append front _)).isInfix
    exact (ih other hother).trans hback

private theorem of_isPrefix {part : List Char} (h : part <+: text) : HasInOrder [part] text := by
  obtain ⟨back, rfl⟩ := h
  exact .cons [] .nil

end HasInOrder

/-- Is there anything to see in a line? -/
def isInked (line : List Char) : Bool := !line.all isBlank

private theorem isInked_eq_false_iff {line : List Char} : isInked line = false ↔ Blanks line := by
  simp [isInked, Blanks]

private theorem dropReturn_isPrefix (line : List Char) : dropReturn line <+: line := by
  unfold dropReturn
  split
  · exact List.dropLast_prefix line
  · exact List.prefix_rfl

/-- A line keeps all but its last character. -/
private theorem prefix_dropReturn_concat (line : List Char) (c : Char) :
    line <+: dropReturn (line ++ [c]) := by
  unfold dropReturn
  rw [List.dropLast_concat]
  split
  · exact List.prefix_rfl
  · exact List.prefix_append line [c]

private theorem dropReturn_isPrefix_append (front back : List Char) :
    dropReturn front <+: dropReturn (front ++ back) := by
  rcases List.eq_nil_or_concat' back with rfl | ⟨back, c, rfl⟩
  · rw [List.append_nil]
  · have hfront : dropReturn front <+: front ++ back :=
      (dropReturn_isPrefix front).trans (List.prefix_append front back)
    rw [← List.append_assoc]
    exact hfront.trans (prefix_dropReturn_concat _ c)

/-- A line feed ends the line before it. -/
private theorem linesFrom_append {front : List Char} (h : '\n' ∉ front) (line rest : List Char) :
    linesFrom line (front ++ '\n' :: rest) =
      dropReturn (line.reverse ++ front) :: linesFrom [] rest := by
  induction front generalizing line with
  | nil => rw [List.nil_append, linesFrom, if_pos rfl, List.append_nil]
  | cons c front ih =>
    simp only [List.mem_cons, not_or] at h
    rw [List.cons_append, linesFrom, if_neg (Ne.symm h.1), ih h.2, List.reverse_cons,
      List.append_assoc, List.singleton_append]

/-- A text without a line feed is its own first line. -/
private theorem headD_linesFrom_of_notMem {cs : List Char} (h : '\n' ∉ cs) (line : List Char) :
    (linesFrom line cs).headD [] = line.reverse ++ cs := by
  induction cs generalizing line with
  | nil => cases line <;> simp [linesFrom]
  | cons c cs ih =>
    simp only [List.mem_cons, not_or] at h
    rw [linesFrom, if_neg (Ne.symm h.1), ih h.2, List.reverse_cons, List.append_assoc,
      List.singleton_append]

/-- A text has no line feed, or a first one. -/
private theorem lineFeed_cases (cs : List Char) :
    '\n' ∉ cs ∨ ∃ front rest, '\n' ∉ front ∧ cs = front ++ '\n' :: rest := by
  by_cases h : '\n' ∈ cs
  · obtain ⟨front, rest, rfl, hfront⟩ := List.eq_append_cons_of_mem h
    exact .inr ⟨front, rest, hfront, rfl⟩
  · exact .inl h

/-- The first line is the beginning of the text. -/
private theorem headD_linesFrom_isPrefix (cs : List Char) : (linesFrom [] cs).headD [] <+: cs := by
  rcases lineFeed_cases cs with h | ⟨front, rest, hfront, rfl⟩
  · rw [headD_linesFrom_of_notMem h]
    exact List.prefix_rfl
  · rw [linesFrom_append hfront]
    exact (dropReturn_isPrefix front).trans (List.prefix_append front _)

theorem toList_firstLine (s : String) :
    (firstLine s).toList = (linesFrom [] s.toList).headD [] := by
  rw [firstLine, lines]
  cases linesFrom [] s.toList <;> simp

theorem toList_firstLine_isPrefix (s : String) : (firstLine s).toList <+: s.toList := by
  rw [toList_firstLine]
  exact headD_linesFrom_isPrefix s.toList

/-- A first line shows the lines that are not blank exactly if the other ones are blank. -/
private theorem hasInOrder_head_iff (first : List Char) (others : List (List Char)) :
    HasInOrder ((first :: others).filter isInked) first ↔ ∀ line ∈ others, Blanks line := by
  have hnone : others.filter isInked = [] ↔ ∀ line ∈ others, Blanks line := by
    simp only [List.filter_eq_nil_iff, Bool.not_eq_true, isInked_eq_false_iff]
  rw [← hnone, List.filter_cons]
  split
  · refine ⟨fun h => ?_, fun h => h ▸ .of_isPrefix List.prefix_rfl⟩
    -- The first line leaves no room for another one.
    have hlength := h.length_le
    rw [List.flatten_cons, List.length_append] at hlength
    have hflat : (others.filter isInked).flatten = [] :=
      List.eq_nil_of_length_eq_zero (by omega)
    refine List.eq_nil_iff_forall_not_mem.2 fun line hline => ?_
    have hinked := (List.mem_filter.1 hline).2
    rw [List.flatten_eq_nil_iff.1 hflat line hline] at hinked
    cases hinked
  · next hfirst =>
    refine ⟨fun h => ?_, fun h => h ▸ .nil⟩
    refine List.eq_nil_iff_forall_not_mem.2 fun line hline => ?_
    have hblank := isInked_eq_false_iff.1 (Bool.eq_false_iff.2 hfirst)
    have hline' : Blanks line := fun c hc => hblank c ((h.isInfix line hline).subset hc)
    have hinked := (List.mem_filter.1 hline).2
    rw [isInked_eq_false_iff.2 hline'] at hinked
    cases hinked

/-- Of the lines at the beginning of a text the first line of the text shows all that are not blank
exactly if only the first of them is not. The last line of the beginning counts as a whole line. -/
theorem hasInOrder_firstLine_iff {front text : List Char} (h : front <+: text) :
    HasInOrder ((linesFrom [] (front ++ ['\n'])).filter isInked) ((linesFrom [] text).headD []) ↔
      ∀ line ∈ (linesFrom [] (front ++ ['\n'])).tail, Blanks line := by
  obtain ⟨back, rfl⟩ := h
  rcases lineFeed_cases front with hfront | ⟨first, rest, hfirst, rfl⟩
  · rw [linesFrom_append hfront, List.reverse_nil, List.nil_append, linesFrom,
      if_pos List.isEmpty_nil, List.tail_cons]
    refine iff_of_true ?_ (List.forall_mem_nil _)
    have hprefix : dropReturn front <+: (linesFrom [] (front ++ back)).headD [] := by
      rcases lineFeed_cases back with hback | ⟨middle, rest, hmiddle, rfl⟩
      · rw [headD_linesFrom_of_notMem (by simp [hfront, hback])]
        exact (dropReturn_isPrefix front).trans (List.prefix_append front back)
      · rw [← List.append_assoc, linesFrom_append (by simp [hfront, hmiddle])]
        exact dropReturn_isPrefix_append front middle
    rw [List.filter_cons, List.filter_nil]
    split
    · exact .of_isPrefix hprefix
    · exact .nil
  · have hbreak (more : List Char) :
        first ++ '\n' :: rest ++ more = first ++ '\n' :: (rest ++ more) := by
      rw [List.append_assoc, List.cons_append]
    rw [hbreak, hbreak, linesFrom_append hfirst, linesFrom_append hfirst, List.headD_cons,
      List.tail_cons]
    exact hasInOrder_head_iff _ _

end Encounter.Text
