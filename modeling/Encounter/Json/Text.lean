import Encounter.Json
import Encounter.Ron.Token

/-!
# JSON texts

`Json.read?` reads the value that a text holds; blanks may stand between its tokens and nothing else
may follow it. The reader goes from token to token and keeps the lists and objects that are still
open. `Json.render` writes a value without blanks, with an escape only where a text needs one.
-/

namespace Encounter.Json

/-- A token. -/
inductive Token where
  | openList
  | closeList
  | openObject
  | closeObject
  | comma
  | colon
  /-- A value without parts. -/
  | atom (json : Json)

/-- Blanks between tokens. -/
def isSpace (c : Char) : Bool := c == ' ' || c == '\t' || c == '\n' || c == '\r'

/-- The characters with an escape of one letter. -/
def shortEscapes : List (Char × Char) :=
  [('"', '"'), ('\\', '\\'), ('\x08', 'b'), ('\t', 't'), ('\n', 'n'), ('\x0c', 'f'), ('\r', 'r')]

/-- Reads four hexadecimal digits. -/
def unit? (cs : List Char) : Option (Nat × List Char) := do
  let (high, rest) ← Ron.hexPair? cs
  let (low, rest) ← Ron.hexPair? rest
  return (256 * high + low, rest)

/-- Reads the code point behind `\u`. One of more than 16 bits stands in two halves, each an escape of
its own; half a code point is refused. -/
def codePoint? (cs : List Char) : Option (Char × List Char) :=
  match unit? cs with
  | none => none
  | some (high, rest) =>
    if high.isValidChar then some (Char.ofNat high, rest)
    else
      match rest with
      | '\\' :: 'u' :: more =>
        match unit? more with
        | some (low, after) =>
          if high < 0xDC00 ∧ 0xDC00 ≤ low ∧ low < 0xE000 then
            some (Char.ofNat (0x10000 + 0x400 * (high - 0xD800) + (low - 0xDC00)), after)
          else none
        | none => none
      | _ => none

/-- Reads the escape behind a backslash. -/
def escape? : List Char → Option (Char × List Char)
  | 'u' :: rest => codePoint? rest
  | '/' :: rest => some ('/', rest)
  | letter :: rest =>
    (shortEscapes.find? fun entry => entry.2 == letter).map fun entry => (entry.1, rest)
  | [] => none

/-- Reads a text up to its closing quote, after skipping the first `skip` characters. Control
characters may stand in it only as escapes. -/
def quoted? : (skip : Nat) → List Char → Option (List Char × List Char)
  | _, [] => none
  | skip + 1, _ :: rest => quoted? skip rest
  | 0, c :: rest =>
    if c = '"' then some ([], rest)
    else if c = '\\' then
      match escape? rest with
      | some (d, after) =>
        (quoted? (rest.length - after.length) rest).map fun read => (d :: read.1, read.2)
      | none => none
    else if c.toNat < 0x20 then none
    else (quoted? 0 rest).map fun read => (c :: read.1, read.2)

/-- May the character stand inside a number? -/
def isNumberPart (c : Char) : Bool :=
  c.isDigit || c == '-' || c == '+' || c == '.' || c == 'e' || c == 'E'

/-- Is this what makes a number a decimal one: a point with digits behind it, an exponent or both? -/
def isFraction : List Char → Bool
  | '.' :: rest =>
    !(rest.takeWhile Char.isDigit).isEmpty && Ron.isExponent (rest.dropWhile Char.isDigit)
  | rest => Ron.isExponent rest

/-- Reads a number without its sign; there is no leading zero. Minus nought is no integer. -/
def unsigned? (negative : Bool) (cs : List Char) : Option Json :=
  let whole := cs.takeWhile Char.isDigit
  let rest := cs.dropWhile Char.isDigit
  if whole.isEmpty || (whole.head? == some '0' && 1 < whole.length) then none
  else if !rest.isEmpty then if isFraction rest then some .decimal else none
  else
    match negative, Text.digitsValue whole with
    | false, n => some (.integer (.ofNat n))
    | true, 0 => some .decimal
    | true, n + 1 => some (.integer (.negSucc n))

/-- Reads a number. -/
def number? : List Char → Option Json
  | '-' :: cs => unsigned? true cs
  | cs => unsigned? false cs

/-- Reads the token at the front of a text. -/
def token? : List Char → Option (Token × List Char)
  | '[' :: rest => some (.openList, rest)
  | ']' :: rest => some (.closeList, rest)
  | '\x7b' :: rest => some (.openObject, rest)
  | '\x7d' :: rest => some (.closeObject, rest)
  | ',' :: rest => some (.comma, rest)
  | ':' :: rest => some (.colon, rest)
  | '"' :: rest =>
    (quoted? 0 rest).map fun read => (.atom (.text (String.ofList read.1)), read.2)
  | 'n' :: 'u' :: 'l' :: 'l' :: rest => some (.atom .null, rest)
  | 't' :: 'r' :: 'u' :: 'e' :: rest => some (.atom (.bool true), rest)
  | 'f' :: 'a' :: 'l' :: 's' :: 'e' :: rest => some (.atom (.bool false), rest)
  | cs =>
    (number? (cs.takeWhile isNumberPart)).map fun json => (.atom json, cs.dropWhile isNumberPart)

/-- A list or an object that is still open, with what it holds so far, last first. -/
inductive Frame where
  | list (items : List Json)
  /-- The value of the field of that name is being read. -/
  | object (fields : List (String × Json)) (name : String)

/-- What comes next inside the innermost frame. -/
inductive Place where
  /-- A value, or the end of an empty list. -/
  | value
  /-- The name of a field, or the end of an empty object. -/
  | name (fields : List (String × Json))
  /-- The colon behind the name of a field. -/
  | colon (fields : List (String × Json)) (name : String)
  /-- A comma or an end: a value was just read. -/
  | behind (json : Json)

/-- How far a text is read: what is open, innermost first, and what comes next. -/
structure Progress where
  frames : List Frame
  place : Place

namespace Progress

/-- At the front of a text. -/
def start : Progress := ⟨[], .value⟩

/-- The value of a text that ends here. -/
def result? : Progress → Option Json
  | ⟨[], .behind json⟩ => some json
  | _ => none

/-- Goes on behind a value. -/
def close? (json : Json) : List Frame → Token → Option Progress
  | .list items :: outer, .comma => some ⟨.list (json :: items) :: outer, .value⟩
  | .list items :: outer, .closeList => some ⟨outer, .behind (.list (json :: items).reverse)⟩
  | .object fields name :: outer, .comma => some ⟨outer, .name ((name, json) :: fields)⟩
  | .object fields name :: outer, .closeObject =>
    some ⟨outer, .behind (.object ((name, json) :: fields).reverse)⟩
  | _, _ => none

/-- Takes a token. -/
def step? (progress : Progress) (token : Token) : Option Progress :=
  match progress.place, token with
  | .value, .openList => some ⟨.list [] :: progress.frames, .value⟩
  | .value, .openObject => some ⟨progress.frames, .name []⟩
  | .value, .atom json => some ⟨progress.frames, .behind json⟩
  | .value, .closeList =>
    match progress.frames with
    | .list [] :: outer => some ⟨outer, .behind (.list [])⟩
    | _ => none
  | .name fields, .atom (.text name) => some ⟨progress.frames, .colon fields name⟩
  | .name [], .closeObject => some ⟨progress.frames, .behind (.object [])⟩
  | .colon fields name, .colon => some ⟨.object fields name :: progress.frames, .value⟩
  | .behind json, token => close? json progress.frames token
  | _, _ => none

end Progress

/-- Reads on, after skipping the first `skip` characters. -/
def readFrom : Progress → (skip : Nat) → List Char → Option Json
  | progress, _, [] => progress.result?
  | progress, skip + 1, _ :: rest => readFrom progress skip rest
  | progress, 0, c :: rest =>
    if isSpace c then readFrom progress 0 rest
    else
      match token? (c :: rest) with
      | some (token, after) =>
        match progress.step? token with
        | some next => readFrom next (rest.length - after.length) rest
        | none => none
      | none => none

/-- Reads the value of a text. -/
def read? (s : String) : Option Json := readFrom .start 0 s.toList

/-- A character as it is written in a text. -/
def charChars (c : Char) : List Char :=
  match shortEscapes.find? fun entry => entry.1 == c with
  | some (_, letter) => ['\\', letter]
  | none =>
    if c.toNat < 0x20 then
      ['\\', 'u', '0', '0', (c.toNat / 16).digitChar, (c.toNat % 16).digitChar]
    else [c]

/-- A text in its quotes. -/
def textChars (s : String) : List Char := '"' :: (s.toList.flatMap charChars ++ ['"'])

mutual

/-- A value as it is written, without blanks. Of a decimal number only the form is kept. -/
def chars : Json → List Char
  | null => "null".toList
  | bool true => "true".toList
  | bool false => "false".toList
  | integer (.ofNat n) => Nat.toDigits 10 n
  | integer (.negSucc n) => '-' :: Nat.toDigits 10 (n + 1)
  | decimal => "0.0".toList
  | text value => textChars value
  | list items => '[' :: itemChars false items
  | object fields => '\x7b' :: fieldChars false fields

/-- The rest of a list; `more` tells that something stands in front of it. -/
def itemChars (more : Bool) : List Json → List Char
  | [] => [']']
  | item :: rest => (if more then [','] else []) ++ chars item ++ itemChars true rest

/-- The rest of an object; `more` tells that something stands in front of it. -/
def fieldChars (more : Bool) : List (String × Json) → List Char
  | [] => ['\x7d']
  | (name, value) :: rest =>
    (if more then [','] else []) ++ textChars name ++ ':' :: (chars value ++ fieldChars true rest)

end

/-- The text of a value, without blanks. -/
def render (json : Json) : String := String.ofList json.chars

end Encounter.Json
