import Encounter.Console.Render
import Encounter.Proofs.Markup.Links
import Encounter.Proofs.Text.Lines

/-!
# The question of a menu

What a menu asks is the visible text in front of its first link. The console shows the first line of the
visible text above the options, so a question is shown exactly if all its other lines are blank
(`question_shown_iff`).
-/

namespace Encounter

namespace Markup

/-- The visible text in front of the first link. -/
def question (text : String) : String :=
  String.ofList (visible ((pieces text).takeWhile fun piece => piece.number?.isNone))

/-- The lines of the question; the last one ends where the first link opens. -/
def questionLines (text : String) : List String := Text.lines (question text ++ "\n")

/-- The question is the beginning of the visible text. -/
private theorem toList_question_isPrefix (text : String) : (question text).toList <+:
    (plain text).toList := by
  have hsplit := List.takeWhile_append_dropWhile (l := pieces text)
    (p := fun piece => piece.number?.isNone)
  rw [toList_plain, question, String.toList_ofList]
  conv => rhs; rw [← hsplit, visible_append]
  exact List.prefix_append _ _

private theorem map_toList_questionLines (text : String) :
    (questionLines text).map String.toList =
      Text.linesFrom [] ((question text).toList ++ ['\n']) := by
  simp [questionLines, Text.lines, Function.comp_def]

end Markup

namespace Console

open Markup

/-- The lines of the question that are not blank are shown in their order, and below them the options
of the menu, each once. -/
def ShowsQuestion (text shown : String) : Prop :=
  ∃ head : String, shown = head ++ "\n" ++ "\n".intercalate ((menuOptions text).map renderOption) ∧
    Text.HasInOrder (((questionLines text).map String.toList).filter Text.isInked) head.toList

/-- A menu with links is shown as the first line of its text and its options. -/
private theorem render_menu (subject : Subject) {text : String} (h : menuOptions text ≠ []) :
    render ⟨subject, .prompted ⟨.askMenu, text⟩⟩ = Text.firstLine (plain text) ++ "\n" ++
      "\n".intercalate ((menuOptions text).map renderOption) := by
  have hoptions : ¬ (menuOptions text).isEmpty = true := mt List.isEmpty_iff.1 h
  exact if_neg hoptions

/-- What is shown above the options is all that matters to the question. -/
private theorem showsQuestion_iff {text head : String} :
    ShowsQuestion text (head ++ "\n" ++ "\n".intercalate ((menuOptions text).map renderOption)) ↔
      Text.HasInOrder (((questionLines text).map String.toList).filter Text.isInked)
        head.toList := by
  constructor
  · rintro ⟨other, hsame, hother⟩
    have hhead : head = other := by
      simpa [← String.toList_inj, String.toList_append] using hsame
    rwa [hhead]
  · exact fun h => ⟨head, rfl, h⟩

/-- A menu with links is shown as one line and below it its options, in their order and each once, so
that the numbers shown are the selections that the menu takes. The line is the first one of the visible
text: the question is shown exactly if its other lines are blank. -/
theorem question_shown_iff (subject : Subject) {text : String} (h : menuOptions text ≠ []) :
    render ⟨subject, .prompted ⟨.askMenu, text⟩⟩ = Text.firstLine (plain text) ++ "\n" ++
        "\n".intercalate ((menuOptions text).map renderOption) ∧
      (ShowsQuestion text (render ⟨subject, .prompted ⟨.askMenu, text⟩⟩) ↔
        ∀ line ∈ (questionLines text).tail, Text.Blanks line.toList) ∧
      ∀ n, (Prompt.mk .askMenu text).accepts (.selection n) = true ↔
        n ∈ (menuOptions text).map MenuOption.index := by
  refine ⟨render_menu subject h, ?_, fun n => ?_⟩
  · have hlines := Text.hasInOrder_firstLine_iff (toList_question_isPrefix text)
    rw [render_menu subject h, showsQuestion_iff, Text.toList_firstLine, map_toList_questionLines,
      hlines, ← map_toList_questionLines, ← List.map_tail, List.forall_mem_map]
  · rw [accepts_selection_iff, or_iff_left h]

/-- The question of this menu is one line, and the link has one of its own. -/
theorem question_shown_iff_help :
    let text := "Would you like to go help Growlie?\r\n#b#L0#Yes, I will go.#l"
    menuOptions text ≠ [] ∧
      ShowsQuestion text (render ⟨⟨⟨1⟩, ⟨1⟩, .npc ⟨1⟩ ⟨5⟩⟩, .prompted ⟨.askMenu, text⟩⟩) := by
  intro text
  have hoptions : menuOptions text ≠ [] := by decide +kernel
  have hlines : questionLines text = ["Would you like to go help Growlie?", ""] := by decide +kernel
  have hblank : ∀ line ∈ (questionLines text).tail, Text.Blanks line.toList := by simp [hlines]
  exact ⟨hoptions, (question_shown_iff _ hoptions).2.1.2 hblank⟩

/-- Of a question of two lines the second is not shown. -/
theorem not_every_question_shown :
    let text := "Welcome!\nWould you like to go?\n#L0#Yes#l"
    menuOptions text = [⟨0, "Yes"⟩] ∧ questionLines text = ["Welcome!", "Would you like to go?", ""] ∧
      renderPrompt ⟨.askMenu, text⟩ = "Welcome!\n  pick 0: Yes" ∧
      ¬ ShowsQuestion text (renderPrompt ⟨.askMenu, text⟩) := by
  intro text
  have hoptions : menuOptions text = [⟨0, "Yes"⟩] := by decide +kernel
  have hlines : questionLines text = ["Welcome!", "Would you like to go?", ""] := by decide +kernel
  have hshown : renderPrompt ⟨.askMenu, text⟩ =
      "Welcome!" ++ "\n" ++ "\n".intercalate ((menuOptions text).map renderOption) := by
    decide +kernel
  refine ⟨hoptions, hlines, by decide +kernel, fun h => ?_⟩
  rw [hshown, showsQuestion_iff, hlines] at h
  exact absurd h.length_le (by decide)

end Console
end Encounter
