import Encounter.Ron.Token

/-!
# What `Some` wraps

With the extension `unwrap_variant_newtypes` the parentheses of `Some` may hold, besides one value,
the fields of a record or the items of a tuple without parentheses of their own. Which of these it
is, is told from the text behind the opening parenthesis: by its first two tokens, or else by
whether a comma outside of all brackets comes before the closing one.

The scan for that comma steps over blanks, comments and quoted literals, but right behind a literal
it takes the next character as it is. So a comment is seen as one only if it does not follow a
literal immediately. A malformed literal is no literal to the scan: it goes on behind its first
character. A text without an end ends the scan.
-/

namespace Encounter.Ron

/-- What the parentheses of `Some` hold. -/
inductive Wrapped where
  | nothing
  | value
  | items
  | fields
  deriving DecidableEq, Repr

namespace Wrapped

/-- Drops a character at the front of a text, unless it is malformed. -/
def dropChar : List Char → List Char
  | '\x27' :: rest => (charBody? rest).getD ('\x27' :: rest)
  | cs => cs

/-- Does the quote of a raw text follow, behind its number signs? -/
def opensRaw (cs : List Char) : Bool := (cs.dropWhile (· == '#')).head? == some '"'

/-- What follows the closing quote of a text with escapes, after skipping its first `skip` characters.
There is no answer if the text has no end, and the answer is none if an escape is malformed.
`dropEscape?` drops an escape behind its backslash. -/
def behindQuote? (dropEscape? : List Char → Option (List Char)) :
    (skip : Nat) → List Char → Option (Option (List Char))
  | _, [] => none
  | skip + 1, _ :: rest => behindQuote? dropEscape? skip rest
  | 0, c :: rest =>
    if c = '"' then some (some rest)
    else if c = '\\' then
      if rest.contains '"' then
        match dropEscape? rest with
        | some after => behindQuote? dropEscape? (rest.length - after.length) rest
        | none => some none
      else none
    else behindQuote? dropEscape? 0 rest

/-- Drops a text at the front of a text, unless it is malformed; none if it has no end. -/
def dropText? : List Char → Option (List Char)
  | '"' :: rest =>
    (behindQuote? (fun cs => (escape? cs).map Prod.snd) 0 rest).map (·.getD ('"' :: rest))
  | 'r' :: rest => if opensRaw rest then (raw? rest).map Prod.snd else some ('r' :: rest)
  | cs => some cs

/-- Drops a byte string at the front of a text, unless it is malformed; none if it has no end. -/
def dropBytes? : List Char → Option (List Char)
  | 'b' :: '"' :: rest => (behindQuote? byteStringEscape? 0 rest).map (·.getD ('b' :: '"' :: rest))
  | 'b' :: 'r' :: rest =>
    if opensRaw rest then (raw? rest).map Prod.snd else some ('b' :: 'r' :: rest)
  | cs => some cs

/-- Drops blanks, comments and the literals behind them. -/
def dropLiterals? (cs : List Char) : Option (List Char) := do
  dropBytes? (← dropText? (dropChar (← afterGap? 0 cs)))

/-- What is held if the first value is followed by a comma, given what follows the comma: a comma may
stand behind a single value. -/
def afterComma? (cs : List Char) : Option Wrapped :=
  (afterGap? 0 cs).map fun rest => if rest.head? = some ')' then value else items

/-- Looks for a comma inside `depth` further brackets, after skipping the first `skip` characters. -/
def scan? : (skip depth : Nat) → List Char → Option Wrapped
  | _, _, [] => none
  | skip + 1, depth, _ :: rest => scan? skip depth rest
  | 0, depth, c :: rest =>
    match dropLiterals? (c :: rest) with
    | some (d :: after) =>
      if d = '(' ∨ d = '[' ∨ d = '\x7b' then scan? (rest.length - after.length) (depth + 1) rest
      else if d = ')' ∨ d = ']' ∨ d = '\x7d' then
        match depth with
        | 0 => some value
        | outer + 1 => scan? (rest.length - after.length) outer rest
      else if d = ',' ∧ depth = 0 then afterComma? after
      else scan? (rest.length - after.length) depth rest
    | _ => none

/-- Tells what the parentheses hold, from the text behind the opening one. -/
def ofText? (cs : List Char) : Option Wrapped := do
  let cs ← afterGap? 0 cs
  if cs.head? = some ')' then some nothing
  else
    match token? cs with
    | some (.ident _ _, rest) =>
      match ← afterGap? 0 rest with
      | ':' :: _ => some fields
      | ',' :: rest => afterComma? rest
      | rest => scan? 0 0 rest
    | _ => scan? 0 0 cs

end Wrapped

end Encounter.Ron
