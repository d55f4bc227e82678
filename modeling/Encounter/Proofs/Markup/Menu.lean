import Encounter.Dialogue.Prompt
import Encounter.Proofs.Markup.Plain
import Encounter.Proofs.Text.Numeral

/-!
# Links as they are written

The reader of menus looks for `#L`. Where a number and its closing sign follow it reads a link up to
the next `#l` and goes on behind it; where they do not it goes on behind the `#L`
(`optionsFrom_link`). So the links of a menu are read as they are written, whatever stands between
them.
-/

namespace Encounter

namespace Markup

theorem splitLinkEnd_cons (c : Char) (cs : List Char) :
    splitLinkEnd (c :: cs) =
      if c = '#' ∧ cs.head? = some 'l' then ([], cs.tail)
      else (c :: (splitLinkEnd cs).1, (splitLinkEnd cs).2) := by
  cases cs with
  | nil => simp [splitLinkEnd]
  | cons d cs => simp [splitLinkEnd]

/-- What follows a link is the end of the text. -/
private theorem splitLinkEnd_suffix (cs : List Char) : (splitLinkEnd cs).2 <:+ cs := by
  induction cs with
  | nil => exact List.suffix_rfl
  | cons c cs ih =>
    rw [splitLinkEnd_cons]
    split
    · exact (List.tail_suffix cs).trans (List.suffix_cons c cs)
    · exact ih.trans (List.suffix_cons c cs)

/-- A label is the beginning of the text. -/
theorem splitLinkEnd_prefix (cs : List Char) : (splitLinkEnd cs).1 <+: cs := by
  induction cs with
  | nil => exact List.prefix_rfl
  | cons c cs ih =>
    rw [splitLinkEnd_cons]
    split
    · exact List.nil_prefix
    · exact List.cons_prefix_cons.2 ⟨rfl, ih⟩

/-- What has no number sign belongs to the label. -/
theorem splitLinkEnd_append {front : List Char} (h : '#' ∉ front) (rest : List Char) :
    splitLinkEnd (front ++ rest) = (front ++ (splitLinkEnd rest).1, (splitLinkEnd rest).2) := by
  induction front with
  | nil => rfl
  | cons c front ih =>
    simp only [List.mem_cons, not_or] at h
    rw [List.cons_append, splitLinkEnd_cons, if_neg fun hsign => h.1 hsign.1.symm, ih h.2,
      List.cons_append]

theorem splitLinkEnd_closing (rest : List Char) :
    splitLinkEnd ('#' :: 'l' :: rest) = ([], rest) := by
  rw [splitLinkEnd_cons, if_pos ⟨rfl, rfl⟩, List.tail_cons]

/-- A link is its number, if that has at most 32 bits, and all up to its end. -/
theorem link?_of_digits {digits body : List Char} (hne : digits ≠ [])
    (hdigits : ∀ c ∈ digits, c.isDigit = true) :
    link? (digits ++ '#' :: body) =
      if Text.digitsValue digits < UInt32.size then
        some (⟨UInt32.ofNat (Text.digitsValue digits),
          Text.trim (plain (String.ofList (splitLinkEnd body).1))⟩, (splitLinkEnd body).2)
      else none := by
  have hnumber : linkDigits? (digits ++ '#' :: body) = some (digits, body) :=
    linkDigits?_eq_some_iff.2 ⟨hne, hdigits, rfl⟩
  rw [link?, hnumber]
  dsimp only
  rw [Text.word?_of_digits hne hdigits]
  by_cases hvalue : Text.digitsValue digits < UInt32.size
  · rw [if_pos hvalue, if_pos hvalue]
  · rw [if_neg hvalue, if_neg hvalue]

theorem link?_eq_none {cs : List Char} (h : linkDigits? cs = none) : link? cs = none := by
  rw [link?, h]

private theorem link?_suffix {cs after : List Char} {option : MenuOption}
    (h : link? cs = some (option, after)) : after <:+ cs := by
  cases hnumber : linkDigits? cs with
  | none =>
    rw [link?_eq_none hnumber] at h
    cases h
  | some number =>
    obtain ⟨digits, body⟩ := number
    obtain ⟨hne, hdigits, rfl⟩ := linkDigits?_eq_some_iff.1 hnumber
    rw [link?_of_digits hne hdigits] at h
    split at h
    · cases h
      refine (splitLinkEnd_suffix body).trans ⟨digits ++ ['#'], ?_⟩
      rw [List.append_assoc, List.singleton_append]
    · cases h

private theorem optionsFrom_skip (skip : Nat) (cs : List Char) :
    optionsFrom skip cs = optionsFrom 0 (cs.drop skip) := by
  induction cs generalizing skip with
  | nil => cases skip <;> rfl
  | cons c cs ih =>
    cases skip with
    | zero => rfl
    | succ skip => exact ih skip

/-- The reader goes on behind a link, and otherwise behind its opening. -/
theorem optionsFrom_link (cs : List Char) :
    optionsFrom 0 ('#' :: 'L' :: cs) =
      match link? cs with
      | some (option, after) => option :: optionsFrom 0 after
      | none => optionsFrom 0 cs := by
  rw [optionsFrom]
  cases hlink : link? cs with
  | none => exact optionsFrom_skip 1 ('L' :: cs)
  | some found =>
    obtain ⟨option, after⟩ := found
    dsimp only
    have hafter : after <:+ 'L' :: cs := (link?_suffix hlink).trans (List.suffix_cons 'L' cs)
    rw [optionsFrom_skip, ← List.suffix_iff_eq_drop.1 hafter]

/-- Elsewhere the reader goes on to the next character. -/
theorem optionsFrom_cons {c : Char} {cs : List Char} (h : ¬ (c = '#' ∧ cs.head? = some 'L')) :
    optionsFrom 0 (c :: cs) = optionsFrom 0 cs := by
  rw [optionsFrom]
  rintro digits rfl rfl
  exact h ⟨rfl, rfl⟩

/-- The characters that open a link. -/
def linkMark : List Char := ['#', 'L']

/-- In a text without the mark of a link there is none. -/
private theorem optionsFrom_append {front rest : List Char} (hfront : ¬ linkMark <:+: front)
    (hrest : rest.head? ≠ some 'L') : optionsFrom 0 (front ++ rest) = optionsFrom 0 rest := by
  induction front with
  | nil => rfl
  | cons c front ih =>
    have htail : ¬ linkMark <:+: front := fun h => hfront (h.trans (List.suffix_cons c front).isInfix)
    rw [List.cons_append, optionsFrom_cons, ih htail]
    rintro ⟨rfl, hhead⟩
    cases front with
    | nil => exact hrest hhead
    | cons d front =>
      obtain rfl : d = 'L' := Option.some.inj hhead
      exact hfront (List.IsPrefix.isInfix ⟨front, rfl⟩)

/-- A link as it is written into a menu, and the text behind it. -/
structure WrittenLink where
  index : UInt32
  /-- How many zeros stand in front of the number. -/
  zeros : Nat
  label : String
  behind : String
  label_unmarked : '#' ∉ label.toList
  behind_unmarked : ¬ linkMark <:+: behind.toList

namespace WrittenLink

/-- The digits of the number. -/
def digits (link : WrittenLink) : List Char :=
  List.replicate link.zeros '0' ++ (toString link.index).toList

/-- How the link is written. -/
def text (link : WrittenLink) : String :=
  "#L" ++ String.ofList link.digits ++ "#" ++ link.label ++ "#l" ++ link.behind

/-- What the link offers. -/
def offer (link : WrittenLink) : MenuOption := ⟨link.index, Text.trim link.label⟩

private theorem digits_eq (link : WrittenLink) :
    link.digits = List.replicate link.zeros '0' ++ Nat.toDigits 10 link.index.toNat := by
  show _ ++ link.index.toNat.repr.toList = _
  rw [Nat.toList_repr]

private theorem digits_ne_nil (link : WrittenLink) : link.digits ≠ [] := by
  rw [digits_eq]
  exact List.append_ne_nil_of_right_ne_nil _ Nat.toDigits_ne_nil

private theorem isDigit_of_mem_digits (link : WrittenLink) :
    ∀ c ∈ link.digits, c.isDigit = true := by
  intro c hc
  rw [digits_eq, List.mem_append, List.mem_replicate] at hc
  obtain ⟨-, rfl⟩ | hc := hc
  · decide
  · exact Nat.isDigit_of_mem_toDigits (b := 10) (by decide) (by decide) hc

private theorem digitsValue_digits (link : WrittenLink) :
    Text.digitsValue link.digits = link.index.toNat := by
  rw [digits_eq, Text.digitsValue_zeros]

end WrittenLink

/-- A menu as it is written: a text in front, and links. -/
structure WrittenMenu where
  front : String
  links : List WrittenLink
  front_unmarked : ¬ linkMark <:+: front.toList

/-- How the menu is written. -/
def WrittenMenu.text (menu : WrittenMenu) : String :=
  menu.front ++ String.join (menu.links.map WrittenLink.text)

/-- A text without number signs is visible as it is. -/
private theorem plain_of_notMem {s : String} (h : '#' ∉ s.toList) : plain s = s := by
  have hscan : Scan s.toList (s.toList.map Piece.char) := by
    simpa using Scan.nil.of_notMem h
  rw [plain_of_scan hscan, visible_map_char, String.ofList_toList]

/-- A written link is read, and the reader goes on behind the text that follows it. -/
private theorem WrittenLink.optionsFrom_text (link : WrittenLink) {rest : List Char}
    (hrest : rest.head? ≠ some 'L') :
    optionsFrom 0 (link.text.toList ++ rest) = link.offer :: optionsFrom 0 rest := by
  have htext : link.text.toList ++ rest = '#' :: 'L' :: (link.digits ++ '#' ::
      (link.label.toList ++ '#' :: 'l' :: (link.behind.toList ++ rest))) := by
    simp [WrittenLink.text]
  have hvalue : Text.digitsValue link.digits < UInt32.size :=
    link.digitsValue_digits ▸ link.index.toNat_lt
  rw [htext, optionsFrom_link, link?_of_digits link.digits_ne_nil link.isDigit_of_mem_digits,
    if_pos hvalue, splitLinkEnd_append link.label_unmarked, splitLinkEnd_closing, List.append_nil,
    link.digitsValue_digits, UInt32.ofNat_toNat, String.ofList_toList,
    plain_of_notMem link.label_unmarked]
  dsimp only
  rw [optionsFrom_append link.behind_unmarked hrest, WrittenLink.offer]

/-- The written links are read one after the other. -/
private theorem optionsFrom_links (links : List WrittenLink) :
    optionsFrom 0 (String.join (links.map WrittenLink.text)).toList =
      links.map WrittenLink.offer := by
  induction links with
  | nil => rfl
  | cons link links ih =>
    rw [List.map_cons, String.join_cons, String.toList_append, link.optionsFrom_text, ih,
      List.map_cons]
    cases links <;> simp [WrittenLink.text]

/-- A menu takes the numbers of its links, and every selection if it has none. -/
theorem accepts_selection_iff (text : String) (n : UInt32) :
    (Prompt.mk .askMenu text).accepts (.selection n) = true ↔
      n ∈ (menuOptions text).map MenuOption.index ∨ menuOptions text = [] := by
  simp only [Prompt.accepts, Prompt.options, beq_self_eq_true, Bool.true_and, Bool.or_eq_true,
    List.isEmpty_iff, List.any_eq_true, beq_iff_eq, List.mem_map]
  exact or_comm

/-- The links of a menu are offered as they are written, in order, whatever stands in front of them
and between them. The menu takes the selection of one of their numbers, and every selection if it has
no links. -/
theorem menuOptions_written (menu : WrittenMenu) :
    menuOptions menu.text = menu.links.map WrittenLink.offer ∧
      ∀ n, (Prompt.mk .askMenu menu.text).accepts (.selection n) = true ↔
        n ∈ menu.links.map WrittenLink.index ∨ menu.links = [] := by
  have hread : menuOptions menu.text = menu.links.map WrittenLink.offer := by
    rw [menuOptions, WrittenMenu.text, String.toList_append,
      optionsFrom_append menu.front_unmarked, optionsFrom_links]
    cases menu.links <;> simp [WrittenLink.text]
  refine ⟨hread, fun n => ?_⟩
  rw [accepts_selection_iff, hread, List.map_map, List.map_eq_nil_iff]
  rfl

/-- A menu of two links, one with zeros in front of its number and one with blanks around its label. -/
def growlieMenu : WrittenMenu :=
  ⟨"Would you like to go help #rGrowlie#k?\r\n#b",
    [⟨7, 2, "Yes, I will go.", "\r\n", by decide +kernel, by decide +kernel⟩,
      ⟨1, 0, "  No.\t", "#k", by decide +kernel, by decide +kernel⟩], by decide +kernel⟩

/-- Its labels are offered without the blanks, and only its numbers are taken. -/
theorem menuOptions_growlieMenu :
    growlieMenu.text = "Would you like to go help #rGrowlie#k?\r\n#b" ++
      "#L007#Yes, I will go.#l\r\n#L1#  No.\t#l#k" ∧
    menuOptions growlieMenu.text = [⟨7, "Yes, I will go."⟩, ⟨1, "No."⟩] ∧
    (Prompt.mk .askMenu growlieMenu.text).accepts (.selection 7) = true ∧
    (Prompt.mk .askMenu growlieMenu.text).accepts (.selection 0) = false := by
  obtain ⟨hread, haccepts⟩ := menuOptions_written growlieMenu
  refine ⟨by decide +kernel, hread.trans (by decide +kernel), (haccepts 7).2 (by decide), ?_⟩
  rw [Bool.eq_false_iff, Ne, haccepts]
  decide

end Markup
end Encounter
