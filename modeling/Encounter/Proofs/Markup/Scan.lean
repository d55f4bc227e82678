import Encounter.Dialogue.Markup
import Encounter.Proofs.Ron.Gap

/-!
# Scanning a text for tokens

A text is taken apart from left to right: where a token starts the whole token is one piece, else the
next character is (`Scan`). One token at most starts at a place, so a text has exactly one scan
(`scan_iff`). The characters that are pieces of their own are the visible ones.
-/

namespace Encounter.Markup

/-- A token. -/
inductive Token where
  /-- Sets the style. -/
  | style (code : Char) (hcode : code ∈ styleCodes)
  /-- Opens the link whose number has these digits. -/
  | opening (digits : List Char) (hne : digits ≠ []) (hdigits : ∀ c ∈ digits, c.isDigit = true)
  /-- Closes a link. -/
  | closing

namespace Token

/-- How a token is written. -/
def text : Token → List Char
  | style code _ => ['#', code]
  | opening digits _ _ => '#' :: 'L' :: (digits ++ ['#'])
  | closing => ['#', 'l']

/-- The number of the link that a token opens. -/
def number? : Token → Option Nat
  | opening digits _ _ => some (Text.digitsValue digits)
  | style _ _ | closing => none

end Token

theorem linkDigits?_eq_some_iff {cs digits rest : List Char} :
    linkDigits? cs = some (digits, rest) ↔
      digits ≠ [] ∧ (∀ c ∈ digits, c.isDigit = true) ∧ cs = digits ++ '#' :: rest := by
  constructor
  · intro h
    unfold linkDigits? at h
    split at h
    · next behind hbehind =>
      dsimp only at h
      split at h
      · cases h
      · next hne =>
        cases h
        refine ⟨fun hnil => hne (List.isEmpty_iff.2 hnil), List.all_eq_true.1 List.all_takeWhile, ?_⟩
        rw [← hbehind, List.takeWhile_append_dropWhile]
    · cases h
  · rintro ⟨hne, hdigits, rfl⟩
    have hsign : ('#' :: rest).head?.any Char.isDigit = false := rfl
    obtain ⟨htake, hdrop⟩ := Ron.takeWhile_append hdigits hsign
    simp [linkDigits?, htake, hdrop, hne]

/-- The token at the front of a text, and the text behind it. -/
def token? : List Char → Option (Token × List Char)
  | '#' :: code :: rest =>
    if code = 'L' then
      match h : linkDigits? rest with
      | some (digits, behind) =>
        have hlink := linkDigits?_eq_some_iff.1 h
        some (.opening digits hlink.1 hlink.2.1, behind)
      | none => none
    else if code = 'l' then some (.closing, rest)
    else if h : code ∈ styleCodes then some (.style code h, rest)
    else none
  | _ => none

/-- A token is found exactly where it is written. -/
theorem token?_eq_some_iff {cs rest : List Char} {t : Token} :
    token? cs = some (t, rest) ↔ cs = t.text ++ rest := by
  constructor
  · intro h
    unfold token? at h
    split at h
    · split at h
      · next hopen =>
        split at h
        · next hlink =>
          cases h
          simp [Token.text, hopen, (linkDigits?_eq_some_iff.1 hlink).2.2]
        · cases h
      split at h
      · next hclose =>
        cases h
        rw [hclose]
        rfl
      split at h
      · cases h
        rfl
      · cases h
    · cases h
  · rintro rfl
    cases t with
    | style code hcode =>
      have hopen : code ≠ 'L' := fun he => absurd (he ▸ hcode) (by decide)
      have hclose : code ≠ 'l' := fun he => absurd (he ▸ hcode) (by decide)
      simp [Token.text, token?, hopen, hclose, hcode]
    | opening digits hne hdigits =>
      have hlink : linkDigits? (digits ++ '#' :: rest) = some (digits, rest) :=
        linkDigits?_eq_some_iff.2 ⟨hne, hdigits, rfl⟩
      simp only [Token.text, List.cons_append, List.append_assoc, List.nil_append, token?, if_true]
      split
      · next hfound =>
        cases hlink.symm.trans hfound
        rfl
      · next hnone => cases hlink.symm.trans hnone
    | closing => rfl

theorem token?_eq_none_iff {cs : List Char} :
    token? cs = none ↔ ∀ t : Token, ¬ t.text <+: cs := by
  constructor
  · rintro h t ⟨rest, hrest⟩
    cases h.symm.trans (token?_eq_some_iff.2 hrest.symm)
  · intro h
    cases hfound : token? cs with
    | none => rfl
    | some found =>
      obtain ⟨t, rest⟩ := found
      exact absurd ⟨rest, (token?_eq_some_iff.1 hfound).symm⟩ (h t)

/-- A token is a number sign and at least one more character. -/
theorem Token.exists_cons (t : Token) : ∃ code behind, t.text = '#' :: code :: behind := by
  cases t <;> exact ⟨_, _, rfl⟩

/-- A token has number signs, letters of its own and digits only. -/
theorem Token.mem_text (t : Token) {c : Char} (hc : c ∈ t.text) :
    c ∈ '#' :: 'L' :: 'l' :: styleCodes ∨ c.isDigit = true := by
  cases t with
  | style code hcode =>
    simp only [text, List.mem_cons, List.not_mem_nil, or_false] at hc
    obtain rfl | rfl := hc
    · exact .inl List.mem_cons_self
    · exact .inl (by simp [hcode])
  | opening digits _ hdigits =>
    simp only [text, List.mem_cons, List.mem_append, List.not_mem_nil, or_false] at hc
    obtain rfl | rfl | hc | rfl := hc
    · exact .inl (by decide)
    · exact .inl (by decide)
    · exact .inr (hdigits c hc)
    · exact .inl (by decide)
  | closing =>
    simp only [text, List.mem_cons, List.not_mem_nil, or_false] at hc
    obtain rfl | rfl := hc <;> exact .inl (by decide)

/-- What a scan meets: a token, or a character that belongs to none. -/
inductive Piece where
  | token (t : Token)
  | char (c : Char)

namespace Piece

/-- What is seen of a piece. -/
def seen? : Piece → Option Char
  | token _ => none
  | char c => some c

end Piece

/-- The characters that belong to no token. -/
def visible (pieces : List Piece) : List Char := pieces.filterMap Piece.seen?

@[simp] theorem visible_nil : visible [] = [] := rfl

@[simp] theorem visible_token (t : Token) (pieces : List Piece) :
    visible (.token t :: pieces) = visible pieces := rfl

@[simp] theorem visible_char (c : Char) (pieces : List Piece) :
    visible (.char c :: pieces) = c :: visible pieces := rfl

@[simp] theorem visible_append (front back : List Piece) :
    visible (front ++ back) = visible front ++ visible back := List.filterMap_append

@[simp] theorem visible_map_char (cs : List Char) : visible (cs.map Piece.char) = cs := by
  induction cs with
  | nil => rfl
  | cons c cs ih => rw [List.map_cons, visible_char, ih]

/-- The text consists of these pieces: at each place the token that starts there, else the next
character. -/
inductive Scan : List Char → List Piece → Prop where
  | nil : Scan [] []
  | token (t : Token) {rest : List Char} {pieces : List Piece} (h : Scan rest pieces) :
      Scan (t.text ++ rest) (.token t :: pieces)
  | char {c : Char} {rest : List Char} {pieces : List Piece}
      (hc : ∀ t : Token, ¬ t.text <+: c :: rest) (h : Scan rest pieces) :
      Scan (c :: rest) (.char c :: pieces)

/-- The pieces of a text, after skipping the first `skip` characters. -/
def piecesFrom : (skip : Nat) → List Char → List Piece
  | _, [] => []
  | skip + 1, _ :: rest => piecesFrom skip rest
  | 0, c :: rest =>
    match token? (c :: rest) with
    | some (t, behind) => .token t :: piecesFrom (rest.length - behind.length) rest
    | none => .char c :: piecesFrom 0 rest

/-- The pieces of a text. -/
def pieces (text : String) : List Piece := piecesFrom 0 text.toList

private theorem piecesFrom_skip (skip : Nat) (cs : List Char) :
    piecesFrom skip cs = piecesFrom 0 (cs.drop skip) := by
  induction cs generalizing skip with
  | nil => cases skip <;> rfl
  | cons c cs ih =>
    cases skip with
    | zero => rfl
    | succ skip => exact ih skip

private theorem piecesFrom_token (t : Token) (rest : List Char) :
    piecesFrom 0 (t.text ++ rest) = .token t :: piecesFrom 0 rest := by
  have hfound : token? (t.text ++ rest) = some (t, rest) := token?_eq_some_iff.2 rfl
  obtain ⟨code, behind, ht⟩ := t.exists_cons
  rw [ht, List.cons_append] at hfound ⊢
  have hskip : ((code :: behind) ++ rest).length - rest.length = (code :: behind).length := by
    rw [List.length_append]
    omega
  rw [piecesFrom, hfound]
  dsimp only
  rw [piecesFrom_skip, hskip, List.drop_left]

private theorem piecesFrom_char {c : Char} {rest : List Char}
    (hc : ∀ t : Token, ¬ t.text <+: c :: rest) :
    piecesFrom 0 (c :: rest) = .char c :: piecesFrom 0 rest := by
  rw [piecesFrom, token?_eq_none_iff.2 hc]

private theorem scan_piecesFrom (cs : List Char) : Scan cs (piecesFrom 0 cs) := by
  induction hlength : cs.length using Nat.strongRecOn generalizing cs with
  | ind n ih =>
    subst hlength
    cases hfound : token? cs with
    | some found =>
      obtain ⟨t, rest⟩ := found
      obtain rfl := token?_eq_some_iff.1 hfound
      rw [piecesFrom_token]
      refine .token t (ih rest.length ?_ rest rfl)
      obtain ⟨code, behind, ht⟩ := t.exists_cons
      simp only [ht, List.length_append, List.length_cons]
      omega
    | none =>
      cases cs with
      | nil => exact .nil
      | cons c rest =>
        have hc := token?_eq_none_iff.1 hfound
        rw [piecesFrom_char hc]
        exact .char hc (ih rest.length (by simp) rest rfl)

theorem scan_pieces (text : String) : Scan text.toList (pieces text) :=
  scan_piecesFrom text.toList

namespace Scan

variable {cs : List Char} {pieces : List Piece}

/-- A text without number signs is visible as it is. -/
theorem of_notMem {front : List Char} (hfront : '#' ∉ front) (h : Scan cs pieces) :
    Scan (front ++ cs) (front.map .char ++ pieces) := by
  induction front with
  | nil => exact h
  | cons c front ih =>
    simp only [List.mem_cons, not_or] at hfront
    refine .char ?_ (ih hfront.2)
    rintro t ⟨rest, hrest⟩
    obtain ⟨code, behind, ht⟩ := t.exists_cons
    rw [ht] at hrest
    exact hfront.1 (List.cons.inj hrest).1

end Scan

end Encounter.Markup
