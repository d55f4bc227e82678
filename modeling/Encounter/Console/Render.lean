import Encounter.Event
import Encounter.Text.Lines
import Encounter.Text.Numeral

/-!
# How the console shows events

Texts are shown without markup. A menu is shown as the first line of its text and its options.
-/

namespace Encounter.Console

/-- What a drop is and how far it lies to the right. -/
def describeDrop (placement : DropPlacement) : String :=
  match placement.kind with
  | .item drop =>
    toString drop.item ++ " x" ++ toString drop.quantity ++ " at " ++
      Text.signed placement.position.x.toInt
  | .mesos drop =>
    toString drop.min ++ "-" ++ toString drop.max ++ " mesos at " ++
      Text.signed placement.position.x.toInt

/-- The line of a menu option. -/
def renderOption (option : Markup.MenuOption) : String :=
  "  pick " ++ toString option.index ++ ": " ++ option.label

/-- The lines of a prompt. -/
def renderPrompt (prompt : Prompt) : String :=
  let text := Markup.plain prompt.text
  match prompt.kind with
  | .sayNext => text ++ "\n  [next: ok]"
  | .say => text ++ "\n  [ok]"
  | .askMenu =>
    let options := prompt.options
    if options.isEmpty then text ++ "\n  [pick <n>]"
    else Text.firstLine text ++ "\n" ++ "\n".intercalate (options.map renderOption)
  | .askYesNo => text ++ "\n  [yes / no]"

/-- The line of an effect. -/
def renderEffect : Effect → String
  | .chat text => "(chat) " ++ Markup.plain text
  | .changeMap map none => "** warped to " ++ toString map
  | .changeMap map (some portal) => "** warped to " ++ toString map ++ ", " ++ toString portal
  | .dropItems request =>
    "** dropped " ++ ", ".intercalate ((request.layout .origin).map describeDrop)

/-- How a session ended, in words. -/
def renderOutcome : Outcome → String
  | .completed => "completed"
  | .cancelled reason => "cancelled (" ++ reason.name ++ ")"
  | .failed message => "failed: " ++ message

/-- The lines of an event. -/
def render (event : Event) : String :=
  match event.happening with
  | .prompted prompt => renderPrompt prompt
  | .effected effect => renderEffect effect
  | .started =>
    "-- " ++ toString event.subject.session ++ " started by " ++ toString event.subject.trigger
  | .ended outcome => "-- " ++ toString event.subject.session ++ " " ++ renderOutcome outcome

end Encounter.Console
