import Encounter.Text.Blank
import Encounter.Text.Numeral

/-!
# Dialogue markup

Texts shown to players carry tokens: `#b`, `#d`, `#e`, `#g`, `#k`, `#n` and `#r` set the style,
`#L7#` opens the menu link with number 7 and `#l` closes a link. `plain` removes the tokens: it scans
the bytes of a text from left to right and copies the spans between the tokens. `menuOptions` lists
the links with their labels. A number sign that starts no token is ordinary text.
-/

namespace Encounter.Markup

/-- The letters of the style tokens. -/
def styleCodes : List Char := ['b', 'd', 'e', 'g', 'k', 'n', 'r']

/-- Is the byte an ASCII digit? -/
def isDigitByte (b : UInt8) : Bool := '0'.toUInt8 ≤ b && b ≤ '9'.toUInt8

/-- The length of the token at the front of the bytes, of which the first is a number sign. -/
def tokenLength? : List UInt8 → Option Nat
  | _ :: code :: rest =>
    if code = 'L'.toUInt8 then
      let digits := (rest.takeWhile isDigitByte).length
      if 0 < digits ∧ rest[digits]? = some '#'.toUInt8 then some (digits + 3) else none
    else if code = 'l'.toUInt8 ∨ code ∈ styleCodes.map Char.toUInt8 then some 2 else none
  | _ => none

/-- A part of a text, from one byte up to another. -/
structure Span where
  start : Nat
  stop : Nat
  deriving DecidableEq, Repr

/-- The spans between the tokens: `copied` is where the last token ended, `i` how far the scan has
come. The next `skip` bytes still belong to a token. -/
def spansFrom (copied i : Nat) : (skip : Nat) → List UInt8 → List Span
  | _, [] => [⟨copied, i⟩]
  | skip + 1, _ :: rest => spansFrom copied (i + 1) skip rest
  | 0, b :: rest =>
    match if b = '#'.toUInt8 then tokenLength? (b :: rest) else none with
    | some length => ⟨copied, i⟩ :: spansFrom (i + length) (i + 1) (length - 1) rest
    | none => spansFrom copied (i + 1) 0 rest

/-- The spans between the tokens of a text. -/
def spans (text : String) : List Span := spansFrom 0 0 0 text.toByteArray.data.toList

/-- The span lies inside the text, and neither end lies inside a character. -/
def Span.Fits (span : Span) (text : String) : Prop :=
  span.start ≤ span.stop ∧ String.Pos.Raw.IsValid text ⟨span.start⟩ ∧
    String.Pos.Raw.IsValid text ⟨span.stop⟩

instance (span : Span) (text : String) : Decidable (span.Fits text) :=
  inferInstanceAs (Decidable (_ ∧ _ ∧ _))

/-- What a text has in a span; nothing if the span does not fit. -/
def Span.text? (text : String) (span : Span) : Option String :=
  if h : span.Fits text then
    some (text.extract (text.pos ⟨span.start⟩ h.2.1) (text.pos ⟨span.stop⟩ h.2.2))
  else none

/-- What a text has between its tokens; nothing if a span does not fit. -/
def strip? (text : String) : Option String :=
  ((spans text).mapM (Span.text? text)).map String.join

/-- The visible text: tokens removed, all else kept. No text is given up, since all spans fit. -/
def plain (text : String) : String := (strip? text).getD ""

/-- Reads the number of a link and its closing sign: the digits and the text behind the sign. -/
def linkDigits? (cs : List Char) : Option (List Char × List Char) :=
  let digits := cs.takeWhile Char.isDigit
  match cs.dropWhile Char.isDigit with
  | '#' :: rest => if digits.isEmpty then none else some (digits, rest)
  | _ => none

/-- A link of a menu: the number that selects it and its visible label. -/
structure MenuOption where
  index : UInt32
  label : String
  deriving DecidableEq, Repr

/-- The text before the first closing token and the text after it. -/
def splitLinkEnd : List Char → List Char × List Char
  | [] => ([], [])
  | [c] => ([c], [])
  | c :: d :: rest =>
    if c = '#' ∧ d = 'l' then ([], rest)
    else
      let (label, after) := splitLinkEnd (d :: rest)
      (c :: label, after)

/-- Reads the link whose number starts the text: the option and the text after it. -/
def link? (cs : List Char) : Option (MenuOption × List Char) :=
  match linkDigits? cs with
  | none => none
  | some (digits, body) =>
    match Text.word? (String.ofList digits) with
    | none => none
    | some index =>
      let (label, after) := splitLinkEnd body
      some (⟨index, Text.trim (plain (String.ofList label))⟩, after)

/-- The links of a text, after skipping the first `skip` characters. -/
def optionsFrom : (skip : Nat) → List Char → List MenuOption
  | _, [] => []
  | skip + 1, _ :: rest => optionsFrom skip rest
  | 0, c :: rest =>
    match c, rest with
    | '#', 'L' :: digits =>
      match link? digits with
      | some (option, after) => option :: optionsFrom (rest.length - after.length) rest
      | none => optionsFrom 1 rest
    | _, _ => optionsFrom 0 rest

/-- The links of a text, in order. A link runs up to the next closing token or to the end of the
text; its label is the visible text in between without blanks around it. An opening whose number
exceeds 32 bits opens nothing. -/
def menuOptions (text : String) : List MenuOption := optionsFrom 0 text.toList

end Encounter.Markup
