import Encounter.Proofs.Ron.Quoted

/-!
# Tokens laid out as text

Tokens are written one after the other, each in one of the forms that it may take, with blanks and
comments between them at will. If words and numbers are only ever followed by signs, the tokens are
found again, whatever the layout.
-/

namespace Encounter.Ron

/-- A name that is no part of a literal or raw identifier, whatever follows. -/
structure IsWord (name : List Char) : Prop where
  start : name.head?.any Text.isIdentStart = true
  parts : name.all Text.isIdentPart = true
  plain : name ≠ ['r'] ∧ name ≠ ['b', 'r']

instance (name : List Char) : Decidable (IsWord name) :=
  decidable_of_iff (name.head?.any Text.isIdentStart = true ∧
      name.all Text.isIdentPart = true ∧ name ≠ ['r'] ∧ name ≠ ['b', 'r'])
    ⟨fun ⟨hstart, hparts, hplain⟩ => ⟨hstart, hparts, hplain⟩,
      fun h => ⟨h.start, h.parts, h.plain⟩⟩

/-- The token is written so, apart from an opening parenthesis. -/
inductive Spelled : Token → List Char → Prop where
  | sign {c : Char} (h : c ∈ signs) : Spelled (.sign c) [c]
  | word {name : String} (h : IsWord name.toList) : Spelled (.ident false name) name.toList
  | integer {n : Nat} {text : List Char} (h : Numeral n text) (hn : n < 2 ^ 64) :
      Spelled (.integer ⟨false, n, none⟩) text
  | text {s : String} {text : List Char} (h : TextLiteral s.toList text) : Spelled (.text s) text

/-- Can the token be written by itself? -/
def Token.Spellable (token : Token) : Prop := ∃ text, Spelled token text

/-- The text holds just these tokens, with blanks and comments before, between and behind them. -/
inductive Layout : List Token → List Char → Prop where
  | last {gap : List Char} (h : LastGap gap) : Layout [] gap
  | token {token : Token} {tokens : List Token} {gap spelling text : List Char} (hgap : Gap gap)
      (hspelled : Spelled token spelling) (h : Layout tokens text) :
      Layout (token :: tokens) (gap ++ (spelling ++ text))
  | opening {tokens : List Token} {gap text : List Char} (hgap : Gap gap) (h : Layout tokens text) :
      Layout (.opening text :: tokens) (gap ++ '(' :: text)

/-- A token at which words and numbers end. -/
def Token.isBreak : Token → Bool
  | .sign _ => true
  | .opening _ => true
  | _ => false

/-- Does the token stay apart from those behind it? A word or number does before a sign or at the end,
and an opening parenthesis before a word. -/
def Token.Precedes : Token → List Token → Prop
  | .opening _, rest => ∃ name after, rest = .ident false name :: after
  | .ident _ _, rest => rest.head?.all Token.isBreak
  | .integer _, rest => rest.head?.all Token.isBreak
  | _, _ => True

/-- No two tokens merge if nothing stands between them. -/
def Separated : List Token → Prop
  | [] => True
  | token :: rest => token.Precedes rest ∧ Separated rest

section Word

variable {name behind : List Char}

/-- What follows some characters of a word is one more of them, or a break. -/
private theorem append_cases {rest : List Char} (hrest : ∀ c ∈ rest, Text.isIdentPart c = true)
    (hbehind : Breaks behind) {d : Char} {after : List Char} (h : rest ++ behind = d :: after) :
    (Text.isIdentPart d = true ∧ ∃ others, rest = d :: others ∧ others ++ behind = after) ∨
      (rest = [] ∧ d ∈ breakers) := by
  cases rest with
  | nil => exact .inr ⟨rfl, hbehind d (congrArg List.head? h)⟩
  | cons e rest =>
    obtain ⟨rfl, hafter⟩ := List.cons.inj h
    exact .inl ⟨hrest _ List.mem_cons_self, rest, rfl, hafter⟩

theorem IsWord.exists_cons (h : IsWord name) :
    ∃ c rest, name = c :: rest ∧ Text.isIdentStart c = true ∧
      ∀ d ∈ rest, Text.isIdentPart d = true := by
  cases name with
  | nil => exact absurd h.start (by decide)
  | cons c rest =>
    have hparts := List.all_eq_true.1 h.parts
    exact ⟨c, rest, rfl, h.start, fun d hd => hparts d (List.mem_cons_of_mem c hd)⟩

/-- A break ends a word. -/
private theorem any_isIdentPart_breakers : breakers.any Text.isIdentPart = false := by
  decide +kernel

theorem IsWord.ident? (h : IsWord name) (hbehind : Breaks behind) :
    Ron.ident? (name ++ behind) = some (.ident false (String.ofList name), behind) := by
  obtain ⟨htake, hdrop⟩ := hbehind.takeWhile_append any_isIdentPart_breakers
    (List.all_eq_true.1 h.parts)
  obtain ⟨c, rest, rfl, hstart, hrest⟩ := h.exists_cons
  unfold Ron.ident?
  split
  · next heq =>
    injection heq with hc heq
    obtain ⟨hpart, -⟩ | ⟨rfl, -⟩ := append_cases hrest hbehind heq
    · exact absurd hpart (by decide)
    · exact absurd (congrArg (· :: []) hc) h.plain.1
  · have hhead : ((c :: rest) ++ behind).head?.any Text.isIdentStart = true := hstart
    rw [if_pos hhead, htake, hdrop]

/-- A word does not start with a digit. -/
private theorem isDigit_eq_false {c : Char} (h : Text.isIdentStart c = true) :
    c.isDigit = false := by
  have hdigit : ∀ n, n < 58 → 48 ≤ n → Text.isIdentStart (Char.ofNat n) = false := by decide
  rw [Bool.eq_false_iff]
  intro hc
  obtain ⟨hlow, hhigh⟩ := Bool.and_eq_true_iff.1 hc
  have hnone := hdigit c.toNat (Nat.lt_succ_of_le (of_decide_eq_true hhigh)) (of_decide_eq_true hlow)
  rw [Char.ofNat_toNat, h] at hnone
  cases hnone

/-- No literal opens behind some characters of a word. -/
private theorem append_ne_quote {rest : List Char} (hrest : ∀ c ∈ rest, Text.isIdentPart c = true)
    (hbehind : Breaks behind) {d : Char} (hd : Text.isIdentPart d = false ∧ d ∉ breakers)
    (after : List Char) : rest ++ behind ≠ d :: after := by
  intro heq
  obtain ⟨hpart, -⟩ | ⟨-, hbreak⟩ := append_cases hrest hbehind heq
  · exact Bool.false_ne_true (hd.1.symm.trans hpart)
  · exact hd.2 hbreak

/-- A number sign follows the whole word only. -/
private theorem eq_nil_of_append_eq {rest after : List Char}
    (hrest : ∀ c ∈ rest, Text.isIdentPart c = true) (hbehind : Breaks behind)
    (h : rest ++ behind = '#' :: after) : rest = [] := by
  obtain ⟨hpart, -⟩ | ⟨hnil, -⟩ := append_cases hrest hbehind h
  · exact absurd hpart (by decide)
  · exact hnil

/-- A word is read as such. -/
theorem IsWord.token? (h : IsWord name) (hbehind : Breaks behind) :
    Ron.token? (name ++ behind) = some (.ident false (String.ofList name), behind) := by
  rw [← h.ident? hbehind]
  obtain ⟨c, rest, rfl, hstart, hrest⟩ := h.exists_cons
  have hbytes : ∀ {after}, rest ++ behind = 'r' :: after →
      ∃ others, rest = 'r' :: others ∧ (∀ d ∈ others, Text.isIdentPart d = true) ∧
        others ++ behind = after := by
    intro after heq
    obtain ⟨-, others, rfl, hothers⟩ | ⟨-, hbreak⟩ := append_cases hrest hbehind heq
    · exact ⟨others, rfl, fun d hd => hrest d (List.mem_cons_of_mem _ hd), hothers⟩
    · exact absurd hbreak (by decide)
  rw [List.cons_append]
  unfold Ron.token?
  -- The word begins with a letter or underscore, so it is no parenthesis, quote, sign or number; and
  -- `r` or `b` is not followed by what would make a raw or byte string of it.
  split
  case h_1 heq | h_2 heq | h_3 heq | h_11 heq =>
    injection heq with hc
    exact absurd (hc ▸ hstart) (by decide)
  case h_4 heq | h_7 heq | h_10 heq =>
    injection heq with _ heq
    exact absurd heq (append_ne_quote hrest hbehind (by decide) _)
  case h_5 heq | h_6 heq =>
    injection heq with hc heq
    rw [hc, eq_nil_of_append_eq hrest hbehind heq] at h
    exact absurd rfl h.plain.1
  case h_8 heq =>
    injection heq with _ heq
    obtain ⟨others, -, hothers, heq⟩ := hbytes heq
    exact absurd heq (append_ne_quote hothers hbehind (by decide) _)
  case h_9 heq =>
    injection heq with hc heq
    obtain ⟨others, rfl, hothers, heq⟩ := hbytes heq
    rw [hc, eq_nil_of_append_eq hothers hbehind heq] at h
    exact absurd rfl h.plain.2
  case h_12 heq =>
    injection heq with hc hafter
    have hnone : (signs ++ ['+', '-', '.']).any Text.isIdentStart = false := by decide
    have hsign : ∀ d ∈ signs ++ ['+', '-', '.'], c ≠ d := by
      rintro d hd rfl
      exact List.any_eq_false.1 hnone c hd hstart
    have hplus := hsign '+' (by decide)
    have hminus := hsign '-' (by decide)
    have hpoint := hsign '.' (by decide)
    have hnoSign : c ∉ signs := fun hm => hsign c (List.mem_append_left _ hm) rfl
    subst hc hafter
    simp [hnoSign, isDigit_eq_false hstart, hplus, hminus, hpoint]
  case h_13 heq => cases heq

end Word

/-- Nothing is read at a blank or comment. -/
private theorem token?_blank {c : Char} (hc : c ∈ '/' :: spaces) (rest : List Char) :
    token? (c :: rest) = none := by
  have hnone : ('/' :: spaces).any Text.isIdentStart = false := by decide +kernel
  have hnoStart := List.any_eq_false.1 hnone c hc
  simp only [spaces, List.mem_cons, List.not_mem_nil, or_false] at hc
  rcases hc with rfl | rfl | rfl | rfl | rfl | rfl | rfl | rfl | rfl | rfl | rfl | rfl <;>
    simp [token?, ident?, signs, Char.isDigit, hnoStart]

/-- The token at the front of a text is the first one, and the others are found behind it. -/
private theorem tokensFrom_of_token? {token : Token} {spelling text : List Char}
    (hne : spelling ≠ []) (h : token? (spelling ++ text) = some (token, text)) :
    tokensFrom 0 (spelling ++ text) = (tokensFrom 0 text).map (token :: ·) := by
  obtain ⟨c, rest, rfl⟩ := List.exists_cons_of_ne_nil hne
  rw [List.cons_append] at h ⊢
  have hread : ∀ {d}, d ∈ '/' :: spaces → c ≠ d := by
    rintro d hd rfl
    rw [token?_blank hd] at h
    cases h
  have hspace : ¬ isSpace c = true := fun hspace =>
    hread (List.mem_cons_of_mem _ (mem_spaces_of_isSpace hspace)) rfl
  rw [tokensFrom, if_neg hspace, if_neg (hread List.mem_cons_self), h]
  dsimp only
  rw [tokensFrom_append]

private theorem token?_sign {c : Char} (h : c ∈ signs) (rest : List Char) :
    token? (c :: rest) = some (.sign c, rest) := by
  simp only [signs, List.mem_cons, List.not_mem_nil, or_false] at h
  rcases h with rfl | rfl | rfl | rfl | rfl | rfl | rfl | rfl | rfl <;> rfl

private theorem token?_opening {text : List Char} (h : text.head? ≠ some ')') :
    token? ('(' :: text) = some (.opening text, text) := by
  rw [Ron.token?]
  rintro rest rfl
  exact h rfl

theorem Spelled.ne_nil {token : Token} {text : List Char} (h : Spelled token text) : text ≠ [] := by
  cases h with
  | sign => exact List.cons_ne_nil _ _
  | word h =>
    obtain ⟨c, rest, hfirst, -, -⟩ := h.exists_cons
    exact hfirst ▸ List.cons_ne_nil _ _
  | integer h _ =>
    obtain ⟨mark, base, digits, hbase, h, rfl⟩ := h
    obtain ⟨c, rest, hfirst, -⟩ := h.exists_cons_marked hbase
    exact hfirst ▸ List.cons_ne_nil _ _
  | text h => cases h <;> exact List.cons_ne_nil _ _

/-- A token is read where it is written, if it stays apart from what follows. -/
theorem Spelled.token? {token : Token} {tokens : List Token} {spelling text : List Char}
    (h : Spelled token spelling) (hprecedes : token.Precedes tokens)
    (hbreaks : tokens.head?.all Token.isBreak = true → Breaks text) :
    Ron.token? (spelling ++ text) = some (token, text) := by
  cases h with
  | sign h => exact token?_sign h text
  | @word name h => simpa using h.token? (hbreaks hprecedes)
  | integer h hn => exact h.token? hn (hbreaks hprecedes)
  | text h => simpa using h.token? text

namespace Layout

variable {tokens : List Token} {text : List Char}

/-- In front of a sign or parenthesis, and at the end, there is a break. -/
theorem breaks (h : Layout tokens text) (hhead : tokens.head?.all Token.isBreak = true) :
    Breaks text := by
  cases h with
  | last h => exact h.breaks
  | token hgap hspelled _ =>
    apply hgap.breaks_append
    cases hspelled with
    | sign hsign =>
      rintro d ⟨⟩
      exact List.mem_append_right _ (List.mem_cons_of_mem _ (List.mem_cons_of_mem _ hsign))
    | word | integer | text => cases hhead
  | opening hgap _ =>
    apply hgap.breaks_append
    rintro d ⟨⟩
    decide

/-- A word does not start with a parenthesis, nor does what stands in front of it. -/
private theorem head?_ne (h : Layout tokens text) {name : String} {after : List Token}
    (hword : tokens = .ident false name :: after) : text.head? ≠ some ')' := by
  cases h with
  | last => cases hword
  | opening => cases hword
  | @token token _ gap spelling text hgap hspelled _ =>
    obtain ⟨rfl, -⟩ := List.cons.inj hword
    cases hgap with
    | nil =>
      cases hspelled with
      | word h =>
        obtain ⟨c, rest, hfirst, hstart, -⟩ := h.exists_cons
        rw [hfirst]
        rintro ⟨⟩
        exact absurd hstart (by decide)
    | blank hspace =>
      rintro ⟨⟩
      exact absurd hspace (by decide)
    | line | block => exact (nomatch ·)

/-- The tokens are found in any text that holds them. -/
theorem tokensFrom_eq (h : Layout tokens text) (hseparated : Separated tokens) :
    tokensFrom 0 text = some tokens := by
  induction h with
  | last h => exact h.tokensFrom_eq
  | @token token tokens gap spelling text hgap hspelled h ih =>
    have hread := hspelled.token? hseparated.1 h.breaks
    rw [hgap.tokensFrom_append, tokensFrom_of_token? hspelled.ne_nil hread, ih hseparated.2]
    rfl
  | @opening tokens gap text hgap h ih =>
    obtain ⟨name, after, hword⟩ := hseparated.1
    have hread : Ron.token? (['('] ++ text) = some (.opening text, text) :=
      token?_opening (h.head?_ne hword)
    have htokens := tokensFrom_of_token? (List.cons_ne_nil _ _) hread
    rw [ih hseparated.2] at htokens
    rw [hgap.tokensFrom_append]
    exact htokens

/-- Tokens that can be spelled may be put in front of any text. -/
theorem exists_append {front : List Token} (hfront : ∀ token ∈ front, token.Spellable)
    (h : Layout tokens text) : ∃ text, Layout (front ++ tokens) text := by
  induction front with
  | nil => exact ⟨text, h⟩
  | cons token front ih =>
    obtain ⟨⟨spelling, hspelled⟩, hothers⟩ := List.forall_mem_cons.1 hfront
    obtain ⟨text, h⟩ := ih hothers
    exact ⟨_, .token .nil hspelled h⟩

end Layout

end Encounter.Ron
