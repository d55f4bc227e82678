import Encounter.Dialogue.Markup

/-!
# Prompts and replies

A prompt shows a text and waits for the player. What answers it depends on its kind: `Prompt.accepts`
says which replies do.
-/

namespace Encounter

/-- The four ways to show a text and wait. -/
inductive PromptKind where
  /-- A page with a "next" button. -/
  | sayNext
  /-- A page with an "ok" button. -/
  | say
  /-- A menu of links. -/
  | askMenu
  /-- A question to be answered with yes or no. -/
  | askYesNo
  deriving DecidableEq, Repr

/-- The name of a kind of prompt in messages. -/
def PromptKind.name : PromptKind → String
  | sayNext => "say_next"
  | say => "say"
  | askMenu => "ask_menu"
  | askYesNo => "ask_yes_no"

/-- A text shown to the player together with the way to answer it. -/
structure Prompt where
  kind : PromptKind
  text : String
  deriving DecidableEq, Repr

/-- What a player's client sends back. -/
inductive Reply where
  | dismissed
  | selection (index : UInt32)
  | answer (raw : UInt8)
  deriving DecidableEq, Repr

namespace Reply

/-- The name of the kind of reply. -/
def name : Reply → String
  | dismissed => "dismissed"
  | selection _ => "selection"
  | answer _ => "answer"

/-- The reply with its content, as messages quote it. -/
def quoted : Reply → String
  | dismissed => "Dismissed"
  | selection index => "Selection(" ++ toString index ++ ")"
  | answer raw => "Answer(" ++ toString raw ++ ")"

end Reply

/-- The answer to a yes/no question. -/
inductive YesNo where
  | yes
  | no
  deriving DecidableEq, Repr

namespace YesNo

/-- One means yes, every other number no. -/
def ofRaw (raw : UInt8) : YesNo := if raw = 1 then yes else no

/-- Is the answer yes? -/
def isYes : YesNo → Bool
  | yes => true
  | no => false

end YesNo

namespace Prompt

/-- The links that a menu offers; other prompts offer none. -/
def options (prompt : Prompt) : List Markup.MenuOption :=
  match prompt.kind with
  | .askMenu => Markup.menuOptions prompt.text
  | _ => []

/-- Does the reply answer the prompt? A menu without links takes every selection. -/
def accepts (prompt : Prompt) : Reply → Bool
  | .dismissed => prompt.kind == .sayNext || prompt.kind == .say
  | .selection index =>
    prompt.kind == .askMenu &&
      (prompt.options.isEmpty || prompt.options.any fun option => option.index == index)
  | .answer _ => prompt.kind == .askYesNo

end Prompt

end Encounter
