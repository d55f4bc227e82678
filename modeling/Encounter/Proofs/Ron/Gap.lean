import Encounter.Ron.Token

/-!
# What may stand between tokens

Between two tokens there may be any number of blanks and comments. A block comment may hold further
ones; its text is read here up to the closer that belongs to it. None of it leaves a trace in the
tokens.
-/

namespace Encounter.Ron

/-- The text of a block comment behind its opener: up to the first closer, but a comment inside counts
as a whole. -/
inductive Block : List Char → Prop where
  | close : Block ['*', '/']
  | nest {inner rest : List Char} (h : Block inner) (h' : Block rest) :
      Block ('/' :: '*' :: (inner ++ rest))
  | char {c : Char} {rest : List Char} (h : Block rest)
      (hopen : ¬ (c = '/' ∧ rest.head? = some '*'))
      (hclose : ¬ (c = '*' ∧ rest.head? = some '/')) : Block (c :: rest)

/-- Blanks and comments in front of a token. -/
inductive Gap : List Char → Prop where
  | nil : Gap []
  | blank {c : Char} {rest : List Char} (hc : isSpace c = true) (h : Gap rest) : Gap (c :: rest)
  | line {comment rest : List Char} (hline : '\n' ∉ comment) (h : Gap rest) :
      Gap ('/' :: '/' :: (comment ++ '\n' :: rest))
  | block {comment rest : List Char} (hblock : Block comment) (h : Gap rest) :
      Gap ('/' :: '*' :: (comment ++ rest))

/-- Blanks and comments behind the last token: the text may end inside a line comment. -/
inductive LastGap : List Char → Prop where
  | gap {text : List Char} (h : Gap text) : LastGap text
  | line {text comment : List Char} (h : Gap text) (hline : '\n' ∉ comment) :
      LastGap (text ++ '/' :: '/' :: comment)

/-- The blanks. -/
def spaces : List Char :=
  [' ', '\t', '\n', '\x0b', '\x0c', '\r', '\u0085', '\u200E', '\u200F', '\u2028', '\u2029']

/-- The characters at which words and numbers end: blanks, signs, and the openers of comments and
parentheses. -/
def breakers : List Char := spaces ++ '/' :: '(' :: signs

/-- The text is over, or goes on behind a break. -/
def Breaks (text : List Char) : Prop :=
  ∀ c, text.head? = some c → c ∈ breakers

theorem mem_spaces_of_isSpace {c : Char} (h : isSpace c = true) : c ∈ spaces := by
  have hcontrol : ∀ n, n < 14 → 9 ≤ n → Char.ofNat n ∈ spaces := by decide
  simp only [isSpace, Bool.or_eq_true, Bool.and_eq_true, beq_iff_eq, decide_eq_true_eq] at h
  rcases h with (((((rfl | ⟨hlow, hhigh⟩) | rfl) | rfl) | rfl) | rfl) | rfl
  · decide
  · exact Char.ofNat_toNat c ▸ hcontrol c.toNat (Nat.lt_succ_of_le hhigh) hlow
  all_goals decide

theorem Gap.breaks_append {gap text : List Char} (h : Gap gap) (htext : Breaks text) :
    Breaks (gap ++ text) := by
  intro c hc
  cases h with
  | nil => exact htext c hc
  | blank hspace =>
    cases hc
    exact List.mem_append_left _ (mem_spaces_of_isSpace hspace)
  | line | block =>
    cases hc
    decide

theorem LastGap.breaks {gap : List Char} (h : LastGap gap) : Breaks gap := by
  have hnil : Breaks [] := fun c hc => nomatch hc
  cases h with
  | gap h => exact List.append_nil gap ▸ h.breaks_append hnil
  | line h _ =>
    apply h.breaks_append
    rintro c ⟨⟩
    decide

/-- Characters of a kind are taken from the text up to the first one of another kind. -/
theorem takeWhile_append {p : Char → Bool} {text rest : List Char} (htext : ∀ c ∈ text, p c = true)
    (hrest : rest.head?.any p = false) :
    (text ++ rest).takeWhile p = text ∧ (text ++ rest).dropWhile p = rest := by
  rw [List.takeWhile_append_of_pos htext, List.dropWhile_append_of_pos htext]
  cases rest with
  | nil => exact ⟨List.append_nil text, rfl⟩
  | cons c rest =>
    have hc : p c = false := hrest
    simp [hc]

/-- So a word or a number is taken up to a break. -/
theorem Breaks.takeWhile_append {p : Char → Bool} {text rest : List Char} (h : Breaks rest)
    (hp : breakers.any p = false) (htext : ∀ c ∈ text, p c = true) :
    (text ++ rest).takeWhile p = text ∧ (text ++ rest).dropWhile p = rest := by
  refine Ron.takeWhile_append htext ?_
  cases hrest : rest.head? with
  | none => rfl
  | some c => exact Bool.eq_false_iff.2 (List.any_eq_false.1 hp c (h c hrest))

theorem Block.ne_nil {text : List Char} (h : Block text) : text ≠ [] := by
  cases h <;> simp

/-- Behind a block comment the comments around it go on. -/
private theorem Block.dropBlock_append {text : List Char} (h : Block text) (depth : Nat)
    (rest : List Char) : dropBlock depth (text ++ rest) =
      match depth with
      | 0 => some rest
      | outer + 1 => dropBlock outer rest := by
  induction h generalizing depth rest with
  | close => cases depth <;> rfl
  | @nest inner text _ _ ih ih' =>
    show dropBlock (depth + 1) ((inner ++ text) ++ rest) = _
    rw [List.append_assoc, ih]
    exact ih' depth rest
  | @char c text h hopen hclose ih =>
    rw [← ih]
    cases text with
    | nil => exact absurd rfl h.ne_nil
    | cons d text =>
      simp only [List.cons_append]
      rw [dropBlock]
      · rintro after rfl hafter
        exact hopen ⟨rfl, congrArg some (List.cons.inj hafter).1⟩
      · rintro after rfl hafter
        exact hclose ⟨rfl, congrArg some (List.cons.inj hafter).1⟩

private theorem tokensFrom_skip (skip : Nat) (text : List Char) :
    tokensFrom skip text = tokensFrom 0 (text.drop skip) := by
  induction text generalizing skip with
  | nil => cases skip <;> rfl
  | cons c text ih =>
    cases skip with
    | zero => rfl
    | succ skip => exact ih skip

/-- What was read is skipped: the tokens of the text behind it are left. -/
theorem tokensFrom_append (text rest : List Char) :
    tokensFrom ((text ++ rest).length - rest.length) (text ++ rest) = tokensFrom 0 rest := by
  have hlength : (text ++ rest).length - rest.length = text.length := by
    rw [List.length_append]
    omega
  rw [tokensFrom_skip, hlength, List.drop_left]

private theorem tokensFrom_blank {c : Char} (hc : isSpace c = true) (rest : List Char) :
    tokensFrom 0 (c :: rest) = tokensFrom 0 rest := by
  rw [tokensFrom, if_pos hc]

/-- A comment leaves no token. -/
private theorem tokensFrom_comment {text rest : List Char}
    (h : dropComment (text ++ rest) = some rest) :
    tokensFrom 0 ('/' :: (text ++ rest)) = tokensFrom 0 rest := by
  rw [tokensFrom, if_neg (by decide), if_pos rfl, h]
  exact tokensFrom_append text rest

private theorem dropComment_line {comment : List Char} (h : '\n' ∉ comment) (rest : List Char) :
    dropComment (('/' :: comment) ++ rest) = some (rest.dropWhile (· != '\n')) := by
  show some ((comment ++ rest).dropWhile (· != '\n')) = _
  rw [List.dropWhile_append_of_pos]
  intro c hc
  exact bne_iff_ne.2 fun he => h (he ▸ hc)

/-- Blanks and comments leave no tokens. -/
theorem Gap.tokensFrom_append {gap : List Char} (h : Gap gap) (rest : List Char) :
    tokensFrom 0 (gap ++ rest) = tokensFrom 0 rest := by
  induction h with
  | nil => rfl
  | blank hc _ ih => exact (tokensFrom_blank hc _).trans ih
  | @line comment gap hline _ ih =>
    have hcomment := tokensFrom_comment (dropComment_line hline ('\n' :: (gap ++ rest)))
    simp only [List.cons_append, List.append_assoc] at hcomment ⊢
    rw [hcomment, tokensFrom_blank (by decide), ih]
  | @block comment gap hblock _ ih =>
    have hdrop : dropComment (('*' :: comment) ++ (gap ++ rest)) = some (gap ++ rest) :=
      hblock.dropBlock_append 0 (gap ++ rest)
    have hcomment := tokensFrom_comment hdrop
    simp only [List.cons_append, List.append_assoc] at hcomment ⊢
    rw [hcomment, ih]

/-- Nothing is left behind the last token. -/
theorem LastGap.tokensFrom_eq {gap : List Char} (h : LastGap gap) :
    tokensFrom 0 gap = some [] := by
  cases h with
  | gap h =>
    have hgap := h.tokensFrom_append []
    rwa [List.append_nil] at hgap
  | @line gap comment h hline =>
    have hcomment := tokensFrom_comment (dropComment_line hline [])
    rw [List.append_nil] at hcomment
    rw [h.tokensFrom_append, hcomment]
    rfl

end Encounter.Ron
