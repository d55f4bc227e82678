import Encounter.Proofs.Markup.Links

/-!
# Tokens that are left

Taking a token out joins what stands before it and what stands behind it. A number sign that starts no
token is kept, and joined to other characters it may start one: `##bb` leaves `#b`. This happens only
where a token stands right behind such a sign, or right behind the sign and an `L`
(`hasToken_visible_iff`), so a text with no token at such a place leaves none (`Clear.not_joined`).
-/

namespace Encounter.Markup

/-- A token stands somewhere in the text. -/
def HasToken (cs : List Char) : Prop := ∃ t : Token, t.text <:+: cs

theorem HasToken.mono {cs ds : List Char} (h : HasToken cs) (hinside : cs <:+: ds) : HasToken ds :=
  h.imp fun _ ht => ht.trans hinside

theorem not_hasToken_nil : ¬ HasToken [] := by
  rintro ⟨t, ht⟩
  obtain ⟨code, behind, htext⟩ := t.exists_cons
  rw [htext, List.infix_nil] at ht
  cases ht

theorem hasToken_cons_iff {c : Char} {cs : List Char} :
    HasToken (c :: cs) ↔ (∃ t : Token, t.text <+: c :: cs) ∨ HasToken cs := by
  simp only [HasToken, List.infix_cons_iff, exists_or]

private theorem Scan.length_visible_le {cs : List Char} {pieces : List Piece} (h : Scan cs pieces) :
    (visible pieces).length ≤ cs.length := by
  induction h with
  | nil => exact Nat.le_refl _
  | token t _ ih =>
    rw [visible_token, List.length_append]
    omega
  | char _ _ ih => simpa using ih

/-- All of a text is visible exactly if it has no token. -/
theorem visible_eq_iff {cs : List Char} {pieces : List Piece} (h : Scan cs pieces) :
    visible pieces = cs ↔ ¬ HasToken cs := by
  induction h with
  | nil => simp [not_hasToken_nil]
  | @token t rest pieces h _ =>
    have htoken : HasToken (t.text ++ rest) := ⟨t, (List.prefix_append _ _).isInfix⟩
    refine iff_of_false (fun he => ?_) (not_not_intro htoken)
    have hlength := h.length_visible_le
    obtain ⟨code, behind, htext⟩ := t.exists_cons
    rw [visible_token] at he
    rw [he, htext] at hlength
    simp only [List.length_append, List.length_cons] at hlength
    omega
  | char hc _ ih =>
    rw [visible_char, List.cons.injEq, and_iff_right rfl, ih, hasToken_cons_iff,
      or_iff_right fun ⟨t, ht⟩ => hc t ht]

theorem plain_eq_iff (text : String) : plain text = text ↔ ¬ HasToken text.toList := by
  rw [← visible_eq_iff (scan_pieces text), ← toList_plain, String.toList_inj]

/-- Next comes a token, or an `L` and then a token. -/
def TokenAhead : List Piece → Prop
  | .token _ :: _ => True
  | .char c :: .token _ :: _ => c = 'L'
  | _ => False

instance TokenAhead.decidable : (pieces : List Piece) → Decidable (TokenAhead pieces)
  | .token _ :: _ => .isTrue trivial
  | .char c :: .token _ :: _ => inferInstanceAs (Decidable (c = 'L'))
  | [] | [.char _] | .char _ :: .char _ :: _ => .isFalse id

/-- A number sign is kept in front of a token, or of an `L` and a token, and starts a token together
with the visible text behind it. -/
def Joined (pieces : List Piece) : Prop :=
  ∃ back, .char '#' :: back <:+ pieces ∧ TokenAhead back ∧ ∃ t : Token, t.text <+: '#' :: visible back

/-- No number sign is kept in front of a token, or of an `L` and a token. -/
def Clear (pieces : List Piece) : Prop :=
  ∀ back, .char '#' :: back <:+ pieces → ¬ TokenAhead back

private theorem joined_cons_iff {p : Piece} {pieces : List Piece} :
    Joined (p :: pieces) ↔
      (p = .char '#' ∧ TokenAhead pieces ∧ ∃ t : Token, t.text <+: '#' :: visible pieces) ∨
        Joined pieces := by
  simp only [Joined, List.suffix_cons_iff, List.cons.injEq, or_and_right, exists_or]
  refine or_congr_left ⟨?_, ?_⟩
  · rintro ⟨back, ⟨rfl, rfl⟩, hahead⟩
    exact ⟨rfl, hahead⟩
  · rintro ⟨rfl, hahead⟩
    exact ⟨pieces, ⟨rfl, rfl⟩, hahead⟩

private theorem clear_cons_iff {p : Piece} {pieces : List Piece} :
    Clear (p :: pieces) ↔ (p = .char '#' → ¬ TokenAhead pieces) ∧ Clear pieces := by
  simp only [Clear, List.suffix_cons_iff, List.cons.injEq, or_imp, forall_and]
  refine and_congr_left' ⟨?_, ?_⟩
  · rintro h rfl
    exact h pieces ⟨rfl, rfl⟩
  · rintro h back ⟨rfl, rfl⟩
    exact h rfl

private theorem clear_token_iff {t : Token} {pieces : List Piece} :
    Clear (.token t :: pieces) ↔ Clear pieces := by
  simp [clear_cons_iff]

instance Clear.decidable : (pieces : List Piece) → Decidable (Clear pieces)
  | [] => .isTrue (by simp [Clear])
  | .token _ :: pieces =>
    have := decidable pieces
    decidable_of_iff (Clear pieces) clear_token_iff.symm
  | .char c :: pieces =>
    have := decidable pieces
    decidable_of_iff ((c = '#' → ¬ TokenAhead pieces) ∧ Clear pieces) (by simp [clear_cons_iff])

/-- Visible digits and their sign stand in the text, up to the first token. -/
private theorem Scan.exists_digits {cs : List Char} {pieces : List Piece} (h : Scan cs pieces)
    {digits : List Char} (hvisible : digits ++ ['#'] <+: visible pieces) :
    ∃ n, digits.take n ++ ['#'] <+: cs := by
  induction h generalizing digits with
  | nil => simp at hvisible
  | @token t rest _ _ _ =>
    obtain ⟨code, behind, htext⟩ := t.exists_cons
    exact ⟨0, code :: behind ++ rest, by simp [htext]⟩
  | @char c rest _ _ _ ih =>
    rw [visible_char] at hvisible
    cases digits with
    | nil =>
      obtain rfl : '#' = c := (List.cons_prefix_cons.1 hvisible).1
      exact ⟨0, rest, rfl⟩
    | cons d digits =>
      obtain ⟨rfl, hbehind⟩ := List.cons_prefix_cons.1 hvisible
      obtain ⟨n, hn⟩ := ih hbehind
      exact ⟨n + 1, List.cons_prefix_cons.2 ⟨rfl, hn⟩⟩

/-- A number sign that starts no token in the text, but one in the visible text, has a token ahead. -/
private theorem Scan.tokenAhead {rest : List Char} {pieces : List Piece} (h : Scan rest pieces)
    (hsign : ∀ t : Token, ¬ t.text <+: '#' :: rest) {t : Token}
    (ht : t.text <+: '#' :: visible pieces) : TokenAhead pieces := by
  cases h with
  | nil =>
    obtain ⟨code, behind, htext⟩ := t.exists_cons
    simp [htext] at ht
  | token _ _ => exact trivial
  | @char c rest pieces _ h =>
    rw [visible_char] at ht
    cases t with
    | style code hcode =>
      obtain rfl : code = c := (List.cons_prefix_cons.1 (List.cons_prefix_cons.1 ht).2).1
      exact absurd ⟨rest, rfl⟩ (hsign (.style code hcode))
    | closing =>
      obtain rfl : 'l' = c := (List.cons_prefix_cons.1 (List.cons_prefix_cons.1 ht).2).1
      exact absurd ⟨rest, rfl⟩ (hsign .closing)
    | opening digits hne hdigits =>
      obtain ⟨rfl, hvisible⟩ := List.cons_prefix_cons.1 (List.cons_prefix_cons.1 ht).2
      obtain ⟨d, digits, rfl⟩ := List.exists_cons_of_ne_nil hne
      cases h with
      | nil => simp at hvisible
      | token _ _ => exact rfl
      | @char e rest pieces _ h =>
        -- The number would be complete before the first token, so the text would open a link here.
        obtain ⟨rfl, hbehind⟩ := List.cons_prefix_cons.1 hvisible
        obtain ⟨n, hn⟩ := h.exists_digits hbehind
        have hfront : ∀ c ∈ d :: digits.take n, c.isDigit = true := fun c hc =>
          hdigits c (List.cons_subset_cons d (List.take_subset n digits) hc)
        refine absurd ?_ (hsign (.opening (d :: digits.take n) (List.cons_ne_nil _ _) hfront))
        exact List.cons_prefix_cons.2 ⟨rfl, List.cons_prefix_cons.2 ⟨rfl,
          List.cons_prefix_cons.2 ⟨rfl, hn⟩⟩⟩

/-- A token is left exactly where taking out tokens joins a number sign to one. -/
theorem hasToken_visible_iff {cs : List Char} {pieces : List Piece} (h : Scan cs pieces) :
    HasToken (visible pieces) ↔ Joined pieces := by
  induction h with
  | nil => simp [not_hasToken_nil, Joined]
  | token t _ ih => simpa [joined_cons_iff] using ih
  | @char c rest pieces hc h ih =>
    rw [visible_char, hasToken_cons_iff, joined_cons_iff, ih]
    refine or_congr_left ⟨?_, ?_⟩
    · rintro ⟨t, ht⟩
      obtain ⟨code, behind, htext⟩ := t.exists_cons
      obtain rfl : '#' = c := (List.cons_prefix_cons.1 (htext ▸ ht)).1
      exact ⟨rfl, h.tokenAhead hc ht, t, ht⟩
    · rintro ⟨he, -, t, ht⟩
      cases he
      exact ⟨t, ht⟩

/-- A clear text leaves no token. -/
theorem Clear.not_joined {pieces : List Piece} (h : Clear pieces) : ¬ Joined pieces :=
  fun ⟨back, hback, hahead, _⟩ => h back hback hahead

example : Clear (pieces "Go to help Growlie?\r\n#b#L0#Yes, I will go.#l\r\n#L1##rNo#k#l") := by
  decide

/-- A label is a text of its own, and its pieces are its scan. -/
theorem Scan.offers {cs : List Char} {pieces : List Piece} (h : Scan cs pieces) :
    ∀ link ∈ offers pieces, ∃ label, Scan label link.2 := by
  fun_induction Markup.offers pieces generalizing cs with
  | case1 => simp
  | case2 c pieces ih =>
    cases h with
    | char _ h => exact ih h
  | case3 code hcode pieces ih =>
    cases h with
    | token _ h => exact ih h
  | case4 digits hne hdigits pieces ih =>
    cases h with
    | token _ h => exact List.forall_mem_cons.2 ⟨⟨_, h.split.1⟩, ih h.split.2⟩
  | case5 pieces ih =>
    cases h with
    | token _ h => exact ih h

private theorem Clear.of_suffix {front back : List Piece} (h : Clear front)
    (hsuffix : back <:+ front) :
    Clear back :=
  fun others hothers => h others (hothers.trans hsuffix)

private theorem clear_map_char (cs : List Char) : Clear (cs.map .char) := by
  induction cs with
  | nil => simp [Clear]
  | cons c cs ih =>
    refine clear_cons_iff.2 ⟨fun _ => ?_, ih⟩
    rcases cs with _ | ⟨d, _ | ⟨e, cs⟩⟩ <;> exact id

/-- A label that has a token ahead has the text's token ahead. -/
private theorem tokenAhead_of_linkEnd {pieces : List Piece} (h : TokenAhead (linkEnd pieces).1) :
    TokenAhead pieces := by
  match pieces, h with
  | [], h | [.char _], h | .char _ :: .char _ :: _, h => exact h
  | .token _ :: _, _ => exact trivial
  | .char _ :: .token (.style _ _) :: _, h => exact h
  | .char _ :: .token (.opening _ _ _) :: pieces, h =>
    rw [linkEnd, linkEnd] at h
    split at h
    · exact False.elim h
    · exact h
  | .char _ :: .token .closing :: _, h => exact False.elim h

theorem Clear.linkEnd {pieces : List Piece} (h : Clear pieces) : Clear (linkEnd pieces).1 := by
  fun_induction Markup.linkEnd pieces with
  | case1 => exact h
  | case2 c pieces ih =>
    obtain ⟨hsign, hbehind⟩ := clear_cons_iff.1 h
    exact clear_cons_iff.2 ⟨fun he => mt tokenAhead_of_linkEnd (hsign he), ih hbehind⟩
  | case3 code hcode pieces ih => exact clear_token_iff.2 (ih (clear_token_iff.1 h))
  | case4 => exact clear_map_char _
  | case5 digits hne hdigits pieces hhead ih =>
    exact clear_token_iff.2 (ih (clear_token_iff.1 h))
  | case6 => exact clear_map_char []

/-- The labels of a clear text are clear. -/
theorem Clear.offers {pieces : List Piece} (h : Clear pieces) :
    ∀ link ∈ offers pieces, Clear link.2 := by
  fun_induction Markup.offers pieces with
  | case1 => simp
  | case2 c pieces ih => exact ih (clear_cons_iff.1 h).2
  | case3 code hcode pieces ih => exact ih (clear_token_iff.1 h)
  | case4 digits hne hdigits pieces ih =>
    have hbehind := clear_token_iff.1 h
    exact List.forall_mem_cons.2 ⟨hbehind.linkEnd, ih (hbehind.of_suffix (linkEnd_suffix pieces))⟩
  | case5 pieces ih => exact ih (clear_token_iff.1 h)

end Encounter.Markup
