import Encounter.Proofs.Markup.Menu

/-!
# What a menu shows and what it offers

The scan of a text strips every opening of a link; the reader of menus takes all up to the next `#l`
for the label of one link, and takes no number of more than 32 bits. On the pieces of a text whose
numbers fit the reader finds one link after the other (`optionsFrom_eq_offers`). So it offers the
links that the scan strips exactly if the numbers fit and no link opens while another is open.
-/

namespace Encounter.Markup

/-- The number of the link that a piece opens. -/
def Piece.number? : Piece → Option Nat
  | token t => t.number?
  | char _ => none

/-- The numbers of the links that the pieces open. -/
def linkNumbers (pieces : List Piece) : List Nat := pieces.filterMap Piece.number?

/-- No link opens while another one is open; `opened` tells whether one is. -/
def InTurn : (opened : Bool) → List Piece → Prop
  | _, [] => True
  | opened, .char _ :: pieces => InTurn opened pieces
  | opened, .token (.style _ _) :: pieces => InTurn opened pieces
  | opened, .token (.opening _ _ _) :: pieces => opened = false ∧ InTurn true pieces
  | _, .token .closing :: pieces => InTurn false pieces

instance InTurn.decidable :
    (opened : Bool) → (pieces : List Piece) → Decidable (InTurn opened pieces)
  | _, [] => .isTrue trivial
  | opened, .char _ :: pieces | opened, .token (.style _ _) :: pieces => decidable opened pieces
  | _, .token (.opening _ _ _) :: pieces =>
    have := decidable true pieces
    inferInstanceAs (Decidable (_ ∧ _))
  | _, .token .closing :: pieces => decidable false pieces

/-- The pieces of a label and the pieces behind its link. A label goes on to the next `#l`, whose sign
may also be the one that ends the number of another link. -/
def linkEnd : List Piece → List Piece × List Piece
  | [] => ([], [])
  | .char c :: pieces => (.char c :: (linkEnd pieces).1, (linkEnd pieces).2)
  | .token (.style code h) :: pieces =>
    (.token (.style code h) :: (linkEnd pieces).1, (linkEnd pieces).2)
  | .token (.opening digits hne hdigits) :: pieces =>
    if pieces.head?.bind Piece.seen? = some 'l' then
      (('#' :: 'L' :: digits).map .char, pieces.tail)
    else (.token (.opening digits hne hdigits) :: (linkEnd pieces).1, (linkEnd pieces).2)
  | .token .closing :: pieces => ([], pieces)

theorem linkEnd_suffix (pieces : List Piece) : (linkEnd pieces).2 <:+ pieces := by
  fun_induction linkEnd pieces with
  | case1 => exact List.suffix_rfl
  | case2 _ _ ih | case3 _ _ _ ih | case5 _ _ _ _ _ ih => exact ih.trans (List.suffix_cons _ _)
  | case4 => exact (List.tail_suffix _).trans (List.suffix_cons _ _)
  | case6 => exact List.suffix_cons _ _

/-- The links that are read one after the other: digits of the number, and pieces of the label. -/
def offers : List Piece → List (List Char × List Piece)
  | [] => []
  | .char _ :: pieces => offers pieces
  | .token (.style _ _) :: pieces => offers pieces
  | .token (.opening digits _ _) :: pieces =>
    (digits, (linkEnd pieces).1) :: offers (linkEnd pieces).2
  | .token .closing :: pieces => offers pieces
termination_by pieces => pieces.length
decreasing_by
  · simp
  · simp
  · have hlength := (linkEnd_suffix pieces).length_le
    simp only [List.length_cons]
    omega
  · simp

private theorem sign_notMem {digits : List Char} (hdigits : ∀ c ∈ digits, c.isDigit = true) :
    '#' ∉ 'L' :: digits := by
  rw [List.mem_cons, not_or]
  exact ⟨by decide, fun h => absurd (hdigits '#' h) (by decide)⟩

/-- A digit sequence without its closing sign is no token. -/
private theorem scan_unclosed {digits : List Char} (hdigits : ∀ c ∈ digits, c.isDigit = true) :
    Scan ('#' :: 'L' :: digits) (('#' :: 'L' :: digits).map .char) := by
  have hbehind : Scan ('L' :: digits) (('L' :: digits).map Piece.char) := by
    simpa using Scan.nil.of_notMem (sign_notMem hdigits)
  refine .char (fun t ht => ?_) hbehind
  cases t with
  | style code hcode =>
    obtain rfl : code = 'L' := (List.cons_prefix_cons.1 (List.cons_prefix_cons.1 ht).2).1
    exact absurd hcode (by decide)
  | opening others _ _ =>
    have hmore : others ++ ['#'] <+: digits :=
      (List.cons_prefix_cons.1 (List.cons_prefix_cons.1 ht).2).2
    exact absurd (hdigits '#' (hmore.subset (by simp))) (by decide)
  | closing => exact absurd (List.cons_prefix_cons.1 (List.cons_prefix_cons.1 ht).2).1 (by decide)

namespace Scan

variable {cs : List Char} {pieces : List Piece}

/-- A character other than the number sign is seen first exactly if it is the first one. -/
private theorem head?_seen_iff (h : Scan cs pieces) {c : Char} (hc : c ≠ '#') :
    pieces.head?.bind Piece.seen? = some c ↔ cs.head? = some c := by
  cases h with
  | nil => simp
  | token t _ =>
    obtain ⟨code, behind, ht⟩ := t.exists_cons
    simp [ht, Piece.seen?, Ne.symm hc]
  | char _ _ => simp [Piece.seen?]

theorem tail (h : Scan cs pieces) {c : Char} (hc : c ≠ '#') (hhead : cs.head? = some c) :
    Scan cs.tail pieces.tail := by
  cases h with
  | nil => exact .nil
  | token t _ =>
    obtain ⟨code, behind, ht⟩ := t.exists_cons
    rw [ht] at hhead
    exact absurd (Option.some.inj hhead).symm hc
  | char _ h => exact h

/-- A label and the text behind its link have the pieces that `linkEnd` gives them. -/
theorem split (h : Scan cs pieces) :
    Scan (splitLinkEnd cs).1 (linkEnd pieces).1 ∧ Scan (splitLinkEnd cs).2 (linkEnd pieces).2 := by
  induction h with
  | nil => exact ⟨.nil, .nil⟩
  | @char c rest pieces hc h ih =>
    have hclosing : ¬ (c = '#' ∧ rest.head? = some 'l') := by
      rintro ⟨rfl, hhead⟩
      obtain ⟨behind, rfl⟩ := List.head?_eq_some_iff.1 hhead
      exact hc .closing ⟨behind, rfl⟩
    rw [splitLinkEnd_cons, if_neg hclosing]
    refine ⟨.char (fun t ht => ?_) ih.1, ih.2⟩
    exact hc t (ht.trans (List.cons_prefix_cons.2 ⟨rfl, splitLinkEnd_prefix rest⟩))
  | @token t rest pieces h ih =>
    cases t with
    | style code hcode =>
      have hsign : '#' ∉ [code] := by
        rw [List.mem_singleton]
        rintro rfl
        exact absurd hcode (by decide)
      have hclosing : code ≠ 'l' := fun he => absurd (he ▸ hcode) (by decide)
      have hread : splitLinkEnd ('#' :: ([code] ++ rest)) =
          ('#' :: code :: (splitLinkEnd rest).1, (splitLinkEnd rest).2) := by
        rw [splitLinkEnd_cons, if_neg fun he => hclosing (Option.some.inj he.2),
          splitLinkEnd_append hsign]
        rfl
      show Scan (splitLinkEnd ('#' :: ([code] ++ rest))).1 _ ∧
        Scan (splitLinkEnd ('#' :: ([code] ++ rest))).2 _
      rw [hread]
      exact ⟨.token (.style code hcode) ih.1, ih.2⟩
    | opening digits hne hdigits =>
      have hread : splitLinkEnd ((Token.opening digits hne hdigits).text ++ rest) =
          ('#' :: 'L' :: (digits ++ (splitLinkEnd ('#' :: rest)).1),
            (splitLinkEnd ('#' :: rest)).2) := by
        have htext : (Token.opening digits hne hdigits).text ++ rest =
            '#' :: ('L' :: digits ++ '#' :: rest) := by simp [Token.text]
        rw [htext, splitLinkEnd_cons, if_neg fun he => absurd (Option.some.inj he.2) (by decide),
          splitLinkEnd_append (sign_notMem hdigits)]
        rfl
      rw [hread, splitLinkEnd_cons, linkEnd]
      by_cases hhead : rest.head? = some 'l'
      · rw [if_pos ⟨rfl, hhead⟩, if_pos ((h.head?_seen_iff (by decide)).2 hhead), List.append_nil]
        exact ⟨scan_unclosed hdigits, h.tail (by decide) hhead⟩
      · rw [if_neg fun he => hhead he.2, if_neg (mt (h.head?_seen_iff (by decide)).1 hhead)]
        refine ⟨?_, ih.2⟩
        have htoken := Scan.token (.opening digits hne hdigits) ih.1
        simpa [Token.text] using htoken
    | closing =>
      show Scan (splitLinkEnd ('#' :: 'l' :: rest)).1 _ ∧ Scan (splitLinkEnd ('#' :: 'l' :: rest)).2 _
      rw [splitLinkEnd_closing]
      exact ⟨.nil, h⟩

end Scan

/-- The reader of menus passes over every character that starts no token. -/
private theorem optionsFrom_char {c : Char} {cs : List Char}
    (hc : ∀ t : Token, ¬ t.text <+: c :: cs) :
    optionsFrom 0 (c :: cs) = optionsFrom 0 cs := by
  by_cases hopen : c = '#' ∧ cs.head? = some 'L'
  · obtain ⟨rfl, hhead⟩ := hopen
    obtain ⟨behind, rfl⟩ := List.head?_eq_some_iff.1 hhead
    have hnone : linkDigits? behind = none := by
      cases hlink : linkDigits? behind with
      | none => rfl
      | some link =>
        obtain ⟨hne, hdigits, rfl⟩ := linkDigits?_eq_some_iff.1 (Prod.eta link ▸ hlink)
        exact absurd ⟨link.2, by simp [Token.text]⟩ (hc (.opening link.1 hne hdigits))
    rw [optionsFrom_link, link?_eq_none hnone]
    exact (optionsFrom_cons fun he => absurd he.1 (by decide)).symm
  · exact optionsFrom_cons hopen

/-- It passes over a token of two characters that opens no link. -/
private theorem optionsFrom_pair {code : Char} (hlink : code ≠ 'L') (hsign : code ≠ '#')
    (cs : List Char) : optionsFrom 0 ('#' :: code :: cs) = optionsFrom 0 cs := by
  have hopen : ¬ ('#' = '#' ∧ (code :: cs).head? = some 'L') := fun he => hlink (Option.some.inj he.2)
  rw [optionsFrom_cons hopen, optionsFrom_cons fun he => hsign he.1]

/-- What the reader finds, if all numbers fit. -/
theorem optionsFrom_eq_offers {cs : List Char} {pieces : List Piece} (h : Scan cs pieces)
    (hfit : ∀ n ∈ linkNumbers pieces, n < UInt32.size) :
    optionsFrom 0 cs = (offers pieces).map fun link =>
      ⟨UInt32.ofNat (Text.digitsValue link.1), Text.trim (String.ofList (visible link.2))⟩ := by
  fun_induction offers pieces generalizing cs with
  | case1 =>
    cases h
    rfl
  | case2 c pieces ih =>
    cases h with
    | char hc h => rw [optionsFrom_char hc, ih h hfit]
  | case3 code hcode pieces ih =>
    cases h with
    | token _ h =>
      have hlink : code ≠ 'L' := fun he => absurd (he ▸ hcode) (by decide)
      have hsign : code ≠ '#' := fun he => absurd (he ▸ hcode) (by decide)
      exact (optionsFrom_pair hlink hsign _).trans (ih h hfit)
  | case4 digits hne hdigits pieces ih =>
    cases h with
    | @token _ rest _ h =>
      have htext : (Token.opening digits hne hdigits).text ++ rest =
          '#' :: 'L' :: (digits ++ '#' :: rest) := by simp [Token.text]
      have hvalue : Text.digitsValue digits < UInt32.size := hfit _ List.mem_cons_self
      have hback : ∀ n ∈ linkNumbers (linkEnd pieces).2, n < UInt32.size := fun n hn =>
        hfit n (List.mem_cons_of_mem _ (((linkEnd_suffix pieces).sublist.filterMap _).subset hn))
      obtain ⟨hlabel, hbehind⟩ := h.split
      have hplain : plain (String.ofList (splitLinkEnd rest).1) =
          String.ofList (visible (linkEnd pieces).1) :=
        plain_of_scan (by rwa [String.toList_ofList])
      rw [htext, optionsFrom_link, link?_of_digits hne hdigits, if_pos hvalue, hplain,
        List.map_cons, ← ih hbehind hback]
  | case5 pieces ih =>
    cases h with
    | token _ h =>
      exact (optionsFrom_pair (by decide) (by decide) _).trans (ih h hfit)

/-! ## Shown and offered -/

/-- The numbers of the links that are read. -/
def offeredNumbers (pieces : List Piece) : List Nat :=
  (offers pieces).map fun link => Text.digitsValue link.1

private theorem linkNumbers_linkEnd_sublist (pieces : List Piece) :
    (linkNumbers (linkEnd pieces).2).Sublist (linkNumbers pieces) :=
  (linkEnd_suffix pieces).sublist.filterMap _

/-- A link is closed in turn exactly if no link opens up to its end and all is in turn behind it. -/
private theorem inTurn_linkEnd_iff (pieces : List Piece) :
    InTurn true pieces ↔
      linkNumbers (linkEnd pieces).2 = linkNumbers pieces ∧ InTurn false (linkEnd pieces).2 := by
  -- An opening inside the label is lost behind the link.
  have hlost (n : Nat) {back front : List Piece} (hback : (linkNumbers back).Sublist (linkNumbers front)) :
      linkNumbers back ≠ n :: linkNumbers front := fun he => by
    have hlength := hback.length_le
    rw [he, List.length_cons] at hlength
    omega
  fun_induction linkEnd pieces with
  | case1 => simp [InTurn]
  | case2 c pieces ih => exact ih
  | case3 code hcode pieces ih => exact ih
  | case4 digits hne hdigits pieces hhead =>
    refine iff_of_false (fun h => Bool.noConfusion h.1) fun h => ?_
    exact hlost (Text.digitsValue digits) ((List.tail_sublist pieces).filterMap _) h.1
  | case5 digits hne hdigits pieces hhead ih =>
    refine iff_of_false (fun h => Bool.noConfusion h.1) fun h => ?_
    exact hlost (Text.digitsValue digits) (linkNumbers_linkEnd_sublist pieces) h.1
  | case6 pieces => exact (and_iff_right rfl).symm

/-- Nothing but links is read. -/
private theorem offeredNumbers_sublist (pieces : List Piece) :
    (offeredNumbers pieces).Sublist (linkNumbers pieces) := by
  unfold offeredNumbers
  fun_induction offers pieces with
  | case1 => exact .slnil
  | case2 c pieces ih => exact ih
  | case3 code hcode pieces ih => exact ih
  | case4 digits hne hdigits pieces ih =>
    exact (ih.trans (linkNumbers_linkEnd_sublist pieces)).cons_cons _
  | case5 pieces ih => exact ih

/-- All links are read exactly if they are in turn. -/
private theorem offeredNumbers_eq_iff (pieces : List Piece) :
    offeredNumbers pieces = linkNumbers pieces ↔ InTurn false pieces := by
  unfold offeredNumbers
  fun_induction offers pieces with
  | case1 => simp [linkNumbers, InTurn]
  | case2 c pieces ih => exact ih
  | case3 code hcode pieces ih => exact ih
  | case4 digits hne hdigits pieces ih =>
    have hnumbers : linkNumbers (.token (.opening digits hne hdigits) :: pieces) =
        Text.digitsValue digits :: linkNumbers pieces := rfl
    have hturn : InTurn false (.token (.opening digits hne hdigits) :: pieces) ↔
        InTurn true pieces := and_iff_right rfl
    rw [hnumbers, hturn, inTurn_linkEnd_iff, List.map_cons, List.cons.injEq, and_iff_right rfl, ← ih]
    constructor
    · intro h
      have hback : linkNumbers (linkEnd pieces).2 = linkNumbers pieces := by
        refine (linkNumbers_linkEnd_sublist pieces).eq_of_length_le ?_
        rw [← h]
        exact (offeredNumbers_sublist _).length_le
      exact ⟨hback, h.trans hback.symm⟩
    · rintro ⟨hback, h⟩
      exact h.trans hback
  | case5 pieces ih => exact ih

/-- The numbers of the links that the scan of a text strips. -/
def shown (text : String) : List Nat := linkNumbers (pieces text)

/-- The numbers that the menu of a text offers. -/
def offered (text : String) : List Nat := (menuOptions text).map fun option => option.index.toNat

private theorem offered_eq_offeredNumbers {text : String}
    (hfit : ∀ n ∈ shown text, n < UInt32.size) :
    offered text = offeredNumbers (pieces text) := by
  rw [offered, menuOptions, optionsFrom_eq_offers (scan_pieces text) hfit, List.map_map,
    offeredNumbers]
  refine List.map_congr_left fun link hlink => ?_
  have hmem : Text.digitsValue link.1 ∈ offeredNumbers (pieces text) := List.mem_map_of_mem hlink
  exact UInt32.toNat_ofNat_of_lt' (hfit _ ((offeredNumbers_sublist _).subset hmem))

/-- A menu offers exactly the links that the scan of its text strips, in order, if and only if all
their numbers have at most 32 bits and no link opens while another one is open. Then it takes the
selections of these links only, unless there are none. As long as the numbers fit nothing but links
is offered. -/
theorem offered_eq_shown_iff (text : String) :
    (offered text = shown text ↔
      (∀ n ∈ shown text, n < UInt32.size) ∧ InTurn false (pieces text)) ∧
    (offered text = shown text → ∀ n, (Prompt.mk .askMenu text).accepts (.selection n) = true ↔
      n.toNat ∈ shown text ∨ shown text = []) ∧
    ((∀ n ∈ shown text, n < UInt32.size) → (offered text).Sublist (shown text)) := by
  refine ⟨⟨fun h => ?_, fun h => ?_⟩, fun h n => ?_, fun hfit => ?_⟩
  · have hfit : ∀ n ∈ shown text, n < UInt32.size := by
      intro n hn
      rw [← h, offered, List.mem_map] at hn
      obtain ⟨option, -, rfl⟩ := hn
      exact option.index.toNat_lt
    refine ⟨hfit, (offeredNumbers_eq_iff _).1 ?_⟩
    rw [← offered_eq_offeredNumbers hfit, h, shown]
  · rw [offered_eq_offeredNumbers h.1, (offeredNumbers_eq_iff _).2 h.2, shown]
  · rw [accepts_selection_iff, ← h, offered, List.map_eq_nil_iff]
    simp [List.mem_map, UInt32.toNat_inj]
  · rw [offered_eq_offeredNumbers hfit]
    exact offeredNumbers_sublist _

example : InTurn false (pieces "Go to help Growlie?\r\n#b#L0#Yes, I will go.#l\r\n#L1##rNo#k#l") := by
  decide

/-- A number of more than 32 bits is not offered, and neither is a link inside the label of another
one: the player is shown it but cannot select it. -/
theorem not_every_link_offered :
    shown "#L4294967296#Far#l#L0#Near#L1#Here#l" = [4294967296, 0, 1] ∧
      offered "#L4294967296#Far#l#L0#Near#L1#Here#l" = [0] ∧
      (Prompt.mk .askMenu "#L4294967296#Far#l#L0#Near#L1#Here#l").accepts (.selection 1) = false := by
  decide

end Encounter.Markup
