import Mathlib.Logic.Basic
import Encounter.Console.Render
import Encounter.Proofs.Markup.Remnant
import Encounter.Proofs.Text.Lines
import Encounter.Proofs.Text.Numeral

/-!
# Tokens that the console prints

The console shows chat lines, prompts and the labels of links without markup, and puts blanks between
them and words of its own. No token has a blank, so a token that is printed is one that is left in one
of the texts (`hasToken_append_cons_iff`), and a clear text is printed without tokens.
-/

namespace Encounter

namespace Markup

/-- No token has a blank. -/
private theorem Token.isBlank_of_mem {t : Token} {c : Char} (hc : c ∈ t.text) :
    Text.isBlank c = false := by
  have hown : ('#' :: 'L' :: 'l' :: styleCodes).any Text.isBlank = false := by decide
  refine (t.mem_text hc).elim (fun hmem => ?_) Text.isBlank_of_isDigit
  exact Bool.eq_false_iff.2 (List.any_eq_false.1 hown c hmem)

/-- Without a number sign there is no token. -/
private theorem not_hasToken_of_notMem {cs : List Char} (h : '#' ∉ cs) : ¬ HasToken cs := by
  rintro ⟨t, ht⟩
  obtain ⟨code, behind, htext⟩ := t.exists_cons
  exact h (ht.subset (htext ▸ List.mem_cons_self))

/-- A token that begins before a blank ends before it. -/
private theorem Token.prefix_of_blank {t : Token} {c : Char} (hc : Text.isBlank c = true)
    (front : List Char) {back : List Char} (h : t.text <+: front ++ c :: back) :
    t.text <+: front := by
  obtain hfront | ⟨behind, htext⟩ := List.prefix_or_prefix_of_prefix h (List.prefix_append front _)
  · exact hfront
  · cases behind with
    | nil => exact ⟨[], by rw [← htext, List.append_nil, List.append_nil]⟩
    | cons d behind =>
      rw [← htext, List.prefix_append_right_inj] at h
      obtain rfl := (List.cons_prefix_cons.1 h).1
      have hmem : d ∈ t.text := htext ▸ List.mem_append_right front List.mem_cons_self
      exact absurd hc (by rw [Token.isBlank_of_mem hmem]; decide)

/-- A blank parts the tokens of a text. -/
theorem hasToken_append_cons_iff {c : Char} (hc : Text.isBlank c = true) (front back : List Char) :
    HasToken (front ++ c :: back) ↔ HasToken front ∨ HasToken back := by
  induction front with
  | nil =>
    rw [List.nil_append, hasToken_cons_iff, or_iff_right, or_iff_right not_hasToken_nil]
    rintro ⟨t, ht⟩
    have hnone := Token.prefix_of_blank hc [] ht
    exact not_hasToken_nil ⟨t, hnone.isInfix⟩
  | cons d front ih =>
    rw [List.cons_append, hasToken_cons_iff, hasToken_cons_iff, ih, or_assoc]
    refine or_congr_left (exists_congr fun t => ⟨?_, ?_⟩)
    · exact Token.prefix_of_blank hc (d :: front)
    · exact fun ht => ht.trans (List.prefix_append (d :: front) (c :: back))

private theorem hasToken_dropBlanks_iff (cs : List Char) : HasToken
    (Text.dropBlanks cs) ↔ HasToken cs := by
  rw [Text.dropBlanks]
  induction cs with
  | nil => rfl
  | cons c cs ih =>
    rw [List.dropWhile_cons]
    split
    · next hc =>
      have hparted := hasToken_append_cons_iff hc [] cs
      rw [ih, ← List.nil_append (c :: cs), hparted, or_iff_right not_hasToken_nil]
    · rfl

private theorem hasToken_trimChars_iff (cs : List Char) : HasToken
    (Text.trimChars cs) ↔ HasToken cs := by
  obtain ⟨back, hblank, hback⟩ := Text.exists_dropBlanks_eq cs
  rw [← hasToken_dropBlanks_iff cs, hback]
  cases back with
  | nil => rw [List.append_nil]
  | cons c back =>
    obtain ⟨hc, hmore⟩ := List.forall_mem_cons.1 hblank
    have hsign : '#' ∉ back := fun h => absurd (hmore '#' h) (by decide)
    rw [hasToken_append_cons_iff hc, or_iff_left (not_hasToken_of_notMem hsign)]

end Markup

namespace Console

open Markup

/-- Lines have the tokens of each line. -/
private theorem hasToken_intercalate_iff (lines : List String) :
    HasToken ("\n".intercalate lines).toList ↔ ∃ line ∈ lines, HasToken line.toList := by
  induction lines with
  | nil => simp [not_hasToken_nil]
  | cons line lines ih =>
    cases lines with
    | nil => simp
    | cons next lines =>
      have hparted : ("\n".intercalate (line :: next :: lines)).toList =
          line.toList ++ '\n' :: ("\n".intercalate (next :: lines)).toList := by
        rw [String.intercalate_cons_cons, String.toList_append, String.toList_append]
        simp
      rw [hparted, hasToken_append_cons_iff (by decide), ih]
      simp

/-- The line of a link has the tokens of its label. -/
private theorem hasToken_renderOption_iff (option : MenuOption) :
    HasToken (renderOption option).toList ↔ HasToken option.label.toList := by
  have hindex : '#' ∉ (toString option.index).toList := by
    show '#' ∉ option.index.toNat.repr.toList
    rw [Nat.toList_repr]
    exact fun h => absurd (Nat.isDigit_of_mem_toDigits (b := 10) (by decide) (by decide) h) (by decide)
  have hparted : (renderOption option).toList =
      ("  pick ".toList ++ (toString option.index).toList ++ [':']) ++ ' ' :: option.label.toList := by
    simp [renderOption]
  rw [hparted, hasToken_append_cons_iff (by decide), or_iff_right]
  refine not_hasToken_of_notMem ?_
  simp only [List.mem_append, not_or]
  exact ⟨⟨by decide, hindex⟩, by decide⟩

private theorem hasToken_chat_iff (text : String) :
    HasToken (renderEffect (.chat text)).toList ↔ HasToken (plain text).toList := by
  have hparted : (renderEffect (.chat text)).toList = "(chat)".toList ++ ' ' :: (plain text).toList := by
    simp [renderEffect]
  rw [hparted, hasToken_append_cons_iff (by decide),
    or_iff_right (not_hasToken_of_notMem (by decide))]

/-- A hint below a text adds no token. -/
private theorem hasToken_hint_iff (text hint : String) (hsign : '#' ∉ hint.toList) :
    HasToken (text ++ ("\n" ++ hint)).toList ↔ HasToken text.toList := by
  have hparted : (text ++ ("\n" ++ hint)).toList = text.toList ++ '\n' :: hint.toList := by simp
  rw [hparted, hasToken_append_cons_iff (by decide), or_iff_left (not_hasToken_of_notMem hsign)]

/-- A prompt has the tokens of its visible text, but a menu with links those of the first line and of
the labels. -/
private theorem hasToken_renderPrompt_iff (prompt : Prompt) :
    HasToken (renderPrompt prompt).toList ↔
      if prompt.options = [] then HasToken (plain prompt.text).toList
      else HasToken (Text.firstLine (plain prompt.text)).toList ∨
        ∃ option ∈ prompt.options, HasToken option.label.toList := by
  obtain ⟨kind, text⟩ := prompt
  cases kind with
  | sayNext => exact hasToken_hint_iff (plain text) "  [next: ok]" (by decide)
  | say => exact hasToken_hint_iff (plain text) "  [ok]" (by decide)
  | askYesNo => exact hasToken_hint_iff (plain text) "  [yes / no]" (by decide)
  | askMenu =>
    simp only [renderPrompt, List.isEmpty_iff]
    split
    · exact hasToken_hint_iff (plain text) "  [pick <n>]" (by decide)
    · have hparted (first lines : String) :
          (first ++ "\n" ++ lines).toList = first.toList ++ '\n' :: lines.toList := by simp
      rw [hparted, hasToken_append_cons_iff (by decide), hasToken_intercalate_iff]
      simp only [List.mem_map, exists_exists_and_eq_and, hasToken_renderOption_iff]

/-- The labels of a menu have the tokens that are left in them. -/
private theorem hasToken_label_iff {prompt : Prompt}
    (hfit : ∀ n ∈ shown prompt.text, n < UInt32.size) (hoptions : prompt.options ≠ []) :
    (∃ option ∈ prompt.options, HasToken option.label.toList) ↔
      ∃ link ∈ offers (pieces prompt.text), Joined link.2 := by
  obtain ⟨kind, text⟩ := prompt
  cases kind with
  | sayNext | say | askYesNo => exact absurd rfl hoptions
  | askMenu =>
    show (∃ option ∈ menuOptions text, _) ↔ _
    rw [menuOptions, optionsFrom_eq_offers (scan_pieces text) hfit]
    simp only [List.mem_map, exists_exists_and_eq_and, Text.trim, String.toList_ofList,
      hasToken_trimChars_iff]
    refine exists_congr fun link => and_congr_right fun hlink => ?_
    obtain ⟨label, hlabel⟩ := (scan_pieces text).offers link hlink
    exact hasToken_visible_iff hlabel

/-- The visible text stays as it is if it is stripped once more, exactly if no token is left in it; and
tokens are left exactly where taking out others joins a number sign to one. The console prints a token
of a chat line, or of a prompt without links, exactly if one is left in its text; and of a menu with
links exactly if one is left in the first line or in a label. If the numbers of the links fit the
labels are parts of the text's scan. Then a clear text is printed without tokens. -/
theorem token_printed_iff :
    (∀ text : String,
      (plain (plain text) = plain text ↔ ¬ HasToken (plain text).toList) ∧
      (HasToken (plain text).toList ↔ Joined (pieces text))) ∧
    (∀ subject text,
      (HasToken (render ⟨subject, .effected (.chat text)⟩).toList ↔ Joined (pieces text)) ∧
      (Clear (pieces text) → ¬ HasToken (render ⟨subject, .effected (.chat text)⟩).toList)) ∧
    ∀ subject (prompt : Prompt),
      (prompt.options = [] →
        (HasToken (render ⟨subject, .prompted prompt⟩).toList ↔ Joined (pieces prompt.text))) ∧
      (prompt.options ≠ [] →
        (HasToken (render ⟨subject, .prompted prompt⟩).toList ↔
          HasToken (Text.firstLine (plain prompt.text)).toList ∨
            ∃ option ∈ prompt.options, HasToken option.label.toList) ∧
        ((∀ n ∈ shown prompt.text, n < UInt32.size) →
          ((∃ option ∈ prompt.options, HasToken option.label.toList) ↔
            ∃ link ∈ offers (pieces prompt.text), Joined link.2))) ∧
      (Clear (pieces prompt.text) →
        prompt.options = [] ∨ (∀ n ∈ shown prompt.text, n < UInt32.size) →
          ¬ HasToken (render ⟨subject, .prompted prompt⟩).toList) := by
  have hleft (text : String) : HasToken (plain text).toList ↔ Joined (pieces text) := by
    rw [toList_plain]
    exact hasToken_visible_iff (scan_pieces text)
  have hchat (subject : Subject) (text : String) :
      HasToken (render ⟨subject, .effected (.chat text)⟩).toList ↔ Joined (pieces text) :=
    (hasToken_chat_iff text).trans (hleft text)
  have hprompt (subject : Subject) {prompt : Prompt} (hoptions : prompt.options = []) :
      HasToken (render ⟨subject, .prompted prompt⟩).toList ↔ Joined (pieces prompt.text) := by
    show HasToken (renderPrompt prompt).toList ↔ _
    rw [hasToken_renderPrompt_iff, if_pos hoptions, hleft]
  have hmenu (subject : Subject) {prompt : Prompt} (hoptions : prompt.options ≠ []) :
      HasToken (render ⟨subject, .prompted prompt⟩).toList ↔
        HasToken (Text.firstLine (plain prompt.text)).toList ∨
          ∃ option ∈ prompt.options, HasToken option.label.toList := by
    show HasToken (renderPrompt prompt).toList ↔ _
    rw [hasToken_renderPrompt_iff, if_neg hoptions]
  refine ⟨fun text => ⟨plain_eq_iff (plain text), hleft text⟩, fun subject text => ?_,
    fun subject prompt => ⟨hprompt subject, fun hoptions => ⟨hmenu subject hoptions, fun hfit =>
      hasToken_label_iff hfit hoptions⟩, fun hclear hknown => ?_⟩⟩
  · exact ⟨hchat subject text, fun hclear => mt (hchat subject text).1 hclear.not_joined⟩
  · by_cases hoptions : prompt.options = []
    · exact mt (hprompt subject hoptions).1 hclear.not_joined
    · have hfit := hknown.resolve_left hoptions
      rw [hmenu subject hoptions, hasToken_label_iff hfit hoptions]
      rintro (hfirst | ⟨link, hlink, hjoined⟩)
      · have hall : HasToken (plain prompt.text).toList :=
          hfirst.mono (Text.toList_firstLine_isPrefix (plain prompt.text)).isInfix
        exact hclear.not_joined ((hleft prompt.text).1 hall)
      · exact (hclear.offers link hlink).not_joined hjoined

/-- The first sign of two is kept, and once the token behind it is taken out it stands before the next
letter. -/
theorem token_left_behind_sign :
    plain "##bb" = "#b" ∧ plain (plain "##bb") ≠ plain "##bb" ∧ HasToken (plain "##bb").toList ∧
      renderEffect (.chat "##bb") = "(chat) #b" :=
  ⟨by decide, by decide, ⟨.style 'b' (by decide), [], [], by decide⟩, by decide⟩

end Console
end Encounter
