/-!
# Lines of a text

A line ends at a line feed; a carriage return just before the line feed belongs to the line break.
A text that ends in a line break has no empty line after it.
-/

namespace Encounter.Text

/-- Drops the carriage return that ends a line. -/
def dropReturn (line : List Char) : List Char :=
  if line.getLast? = some '\r' then line.dropLast else line

/-- The lines of a list of characters; `line` holds the line read so far, reversed. -/
def linesFrom (line : List Char) : List Char → List (List Char)
  | [] => if line.isEmpty then [] else [line.reverse]
  | c :: rest =>
    if c = '\n' then dropReturn line.reverse :: linesFrom [] rest else linesFrom (c :: line) rest

/-- The lines of a text, without their line breaks. -/
def lines (s : String) : List String := (linesFrom [] s.toList).map String.ofList

/-- The first line of a text, empty for the empty text. -/
def firstLine (s : String) : String := (lines s).headD ""

end Encounter.Text
