import Encounter.Text.Identifier
import Encounter.Text.Numeral

/-!
# Tokens of RON

A RON text is a sequence of tokens with blanks and comments between them. `tokens?` cuts a text into
its tokens and refuses a text with a piece that is none. Comments are `//` up to the end of the line
and `/* */`, which nest.
-/

namespace Encounter.Ron

/-- The types that may be written behind an integer. -/
inductive IntType where
  | signed (bits : Nat)
  | unsigned (bits : Nat)
  deriving DecidableEq, Repr

/-- An integer as written: its sign, its digits and the type behind it. -/
structure Integer where
  negative : Bool
  magnitude : Nat
  type : Option IntType
  deriving DecidableEq, Repr

/-- A token. -/
inductive Token where
  /-- One of the signs `)`, `[`, `]`, the braces, `,`, `:`, `#` and `!`. -/
  | sign (c : Char)
  /-- The sign `(`, with the text behind it. -/
  | opening (behind : List Char)
  /-- Two parentheses with nothing between them. -/
  | empty
  /-- An identifier; `raw` tells that it was written with `r#` in front. -/
  | ident (raw : Bool) (name : String)
  | integer (value : Integer)
  /-- A number that is no integer. -/
  | float
  | text (value : String)
  | char
  | bytes
  deriving DecidableEq, Repr

/-- Blanks between tokens: the characters of the property `Pattern_White_Space`. -/
def isSpace (c : Char) : Bool :=
  c == ' ' || ('\t' ≤ c && c ≤ '\r') || c == '\u0085' || c == '\u200E' || c == '\u200F' ||
    c == '\u2028' || c == '\u2029'

/-- What follows a block comment, inside `depth` further ones. -/
def dropBlock (depth : Nat) : List Char → Option (List Char)
  | '/' :: '*' :: rest => dropBlock (depth + 1) rest
  | '*' :: '/' :: rest =>
    match depth with
    | 0 => some rest
    | outer + 1 => dropBlock outer rest
  | _ :: rest => dropBlock depth rest
  | [] => none

/-- What follows a comment, given the text behind its first slash. -/
def dropComment : List Char → Option (List Char)
  | '/' :: rest => some (rest.dropWhile (· != '\n'))
  | '*' :: rest => dropBlock 0 rest
  | _ => none

/-- What follows the blanks and comments at the front of a text, after skipping the first `skip`
characters. -/
def afterGap? : (skip : Nat) → List Char → Option (List Char)
  | _, [] => some []
  | skip + 1, _ :: rest => afterGap? skip rest
  | 0, c :: rest =>
    if isSpace c then afterGap? 0 rest
    else if c = '/' then
      match dropComment rest with
      | some after => afterGap? (rest.length - after.length) rest
      | none => none
    else some (c :: rest)

/-- May the character stand inside a raw identifier? -/
def isRawPart (c : Char) : Bool := c == '.' || c == '+' || c == '-' || Text.isIdentPart c

/-- What follows a word at the front of a text, unless the word goes on. -/
def dropWord? (word : List Char) (cs : List Char) : Option (List Char) :=
  if word.isPrefixOf cs && !((cs.drop word.length).head?.any Text.isIdentPart) then
    some (cs.drop word.length)
  else none

/-- Reads an identifier. -/
def ident? : List Char → Option (Token × List Char)
  | 'r' :: '#' :: rest =>
    let name := rest.takeWhile isRawPart
    if name.isEmpty then none
    else some (.ident true (String.ofList name), rest.dropWhile isRawPart)
  | cs =>
    if cs.head?.any Text.isIdentStart then
      some (.ident false (String.ofList (cs.takeWhile Text.isIdentPart)),
        cs.dropWhile Text.isIdentPart)
    else none

/-! ## Numbers -/

/-- May the character stand inside an integer? -/
def isIntPart (c : Char) : Bool :=
  c.isDigit || ('a' ≤ c && c ≤ 'f') || ('A' ≤ c && c ≤ 'F') || c == '_'

/-- May the character stand inside a decimal number? -/
def isFloatPart (c : Char) : Bool :=
  c.isDigit || c == 'e' || c == 'E' || c == '.' || c == '+' || c == '-' || c == '_'

/-- The value of a hexadecimal digit. -/
def hexValue? (c : Char) : Option Nat :=
  if c.isDigit then some (c.toNat - '0'.toNat)
  else if 'a' ≤ c ∧ c ≤ 'f' then some (c.toNat - 'a'.toNat + 10)
  else if 'A' ≤ c ∧ c ≤ 'F' then some (c.toNat - 'A'.toNat + 10)
  else none

/-- The value of digits in a base, most significant first; underscores between them do not count. -/
def valueOf? (base : Nat) (digits : List Char) : Option Nat :=
  digits.foldlM (fun n c =>
    if c = '_' then some n
    else
      match hexValue? c with
      | some d => if d < base then some (base * n + d) else none
      | none => none) 0

/-- The sign in front of a number, true for a minus. -/
def signOf : List Char → Bool × List Char
  | '-' :: rest => (true, rest)
  | '+' :: rest => (false, rest)
  | cs => (false, cs)

/-- The base of an integer, by what it starts with. -/
def baseOf : List Char → Nat × List Char
  | '0' :: 'b' :: rest => (2, rest)
  | '0' :: 'o' :: rest => (8, rest)
  | '0' :: 'x' :: rest => (16, rest)
  | cs => (10, cs)

/-- The types that may be written behind an integer, by name. -/
def intTypes : List (List Char × IntType) :=
  [("i8".toList, .signed 8), ("i16".toList, .signed 16), ("i32".toList, .signed 32),
    ("i64".toList, .signed 64), ("u8".toList, .unsigned 8), ("u16".toList, .unsigned 16),
    ("u32".toList, .unsigned 32), ("u64".toList, .unsigned 64)]

/-- The type that the text starts with, and what follows it. -/
def intType? (cs : List Char) : Option (IntType × List Char) :=
  intTypes.findSome? fun entry => (dropWord? entry.1 cs).map (entry.2, ·)

/-- Does a number with that sign and magnitude fit the type? -/
def IntType.fits (negative : Bool) (magnitude : Nat) : IntType → Bool
  | signed bits =>
    if negative then magnitude ≤ Nat.pow 2 (bits - 1) else magnitude < Nat.pow 2 (bits - 1)
  | unsigned bits => if negative then magnitude = 0 else magnitude < Nat.pow 2 bits

/-- Reads an integer. A type may follow where base and digits together look like hexadecimal digits,
so not behind `0o` and `0x`. An integer in another base than ten has to fit 64 bits, one with a type
that type. -/
def integer? (cs : List Char) : Option (Token × List Char) :=
  let (negative, unsigned) := signOf cs
  let (base, body) := baseOf unsigned
  let digits := body.takeWhile isIntPart
  let rest := body.dropWhile isIntPart
  if digits.isEmpty || digits.head? == some '_' then none
  else
    match valueOf? base digits with
    | none => none
    | some magnitude =>
      match if base = 10 ∨ base = 2 then intType? rest else none with
      | some (type, after) =>
        if type.fits negative magnitude then some (.integer ⟨negative, magnitude, some type⟩, after)
        else none
      | none =>
        let widest := if negative then IntType.signed 64 else .unsigned 64
        if base = 10 || widest.fits negative magnitude then
          some (.integer ⟨negative, magnitude, none⟩, rest)
        else none

/-- Are the underscores of a decimal number only behind digits or the exponent sign letter? -/
def underscoresOk (behindDigit : Bool) : List Char → Bool
  | [] => true
  | '_' :: rest => behindDigit && underscoresOk behindDigit rest
  | c :: rest =>
    underscoresOk (c.isDigit || c == 'e' || c == 'E' || (c != '.' && behindDigit)) rest

/-- Is this an exponent, or nothing? -/
def isExponent : List Char → Bool
  | [] => true
  | c :: rest =>
    let digits := (signOf rest).2
    (c == 'e' || c == 'E') && !digits.isEmpty && digits.all Char.isDigit

/-- Is this a decimal number: digits with a point among or beside them, then an exponent? -/
def isDecimal (cs : List Char) : Bool :=
  let body := (signOf cs).2
  let whole := body.takeWhile Char.isDigit
  match body.dropWhile Char.isDigit with
  | '.' :: rest =>
    let fraction := rest.takeWhile Char.isDigit
    !(whole.isEmpty && fraction.isEmpty) && isExponent (rest.dropWhile Char.isDigit)
  | rest => !whole.isEmpty && isExponent rest

/-- Drops the type behind a decimal number, if there is one. -/
def dropFloatType (cs : List Char) : List Char :=
  ((dropWord? "f32".toList cs).or (dropWord? "f64".toList cs)).getD cs

/-- The words for infinity and for no number. -/
def floatWords : List (List Char) :=
  ["inf", "inff32", "inff64", "NaN", "NaNf32", "NaNf64"].map String.toList

/-- Reads a number that is no integer. -/
def float? (cs : List Char) : Option (Token × List Char) :=
  let body := (signOf cs).2
  match floatWords.findSome? fun word => dropWord? word body with
  | some rest => some (.float, rest)
  | none =>
    let digits := cs.takeWhile isFloatPart
    if digits.head? != some '_' && underscoresOk false digits && isDecimal (digits.filter (· != '_'))
    then some (.float, dropFloatType (cs.dropWhile isFloatPart))
    else none

/-- Reads a number: as an integer unless it goes on like a decimal number. -/
def number? (cs : List Char) : Option (Token × List Char) :=
  let body := (signOf cs).2
  if (body.takeWhile isIntPart).length < (body.takeWhile isFloatPart).length then float? cs
  else
    match integer? cs with
    | some read => some read
    | none => if (baseOf body).1 = 10 then float? cs else none

/-! ## Texts -/

/-- The value of two hexadecimal digits. -/
def hexPair? : List Char → Option (Nat × List Char)
  | c :: d :: rest => do return (16 * (← hexValue? c) + (← hexValue? d), rest)
  | _ => none

/-- The code point in the braces of `\u`: one to six hexadecimal digits. -/
def unicodeEscape? : List Char → Option (Char × List Char)
  | '\x7b' :: cs =>
    let digits := cs.takeWhile (· != '\x7d')
    if digits.isEmpty || 6 < digits.length || digits.contains '_' then none
    else
      match valueOf? 16 digits, cs.dropWhile (· != '\x7d') with
      | some n, _ :: rest => if n.isValidChar then some (Char.ofNat n, rest) else none
      | _, _ => none
  | _ => none

/-- Reads `count` more bytes of a character written byte by byte; each carries six bits. -/
def continuation? : (count : Nat) → (value : Nat) → List Char → Option (Nat × List Char)
  | 0, value, cs => some (value, cs)
  | count + 1, value, '\\' :: 'x' :: cs =>
    match hexPair? cs with
    | some (byte, rest) =>
      if 0x80 ≤ byte ∧ byte < 0xC0 then continuation? count (64 * value + (byte - 0x80)) rest
      else none
    | none => none
  | _, _, _ => none

/-- Reads the character whose UTF-8 form starts with the byte: the further bytes follow as escapes,
and the form has to be the shortest. -/
def byteEscape? (byte : Nat) (cs : List Char) : Option (Char × List Char) :=
  let decoded : Option (Nat × Nat × List Char) :=
    if byte < 0x80 then some (0, byte, cs)
    else if 0xC0 ≤ byte ∧ byte < 0xE0 then (continuation? 1 (byte - 0xC0) cs).map (0x80, ·)
    else if 0xE0 ≤ byte ∧ byte < 0xF0 then (continuation? 2 (byte - 0xE0) cs).map (0x800, ·)
    else if 0xF0 ≤ byte ∧ byte < 0xF8 then (continuation? 3 (byte - 0xF0) cs).map (0x10000, ·)
    else none
  match decoded with
  | some (least, n, rest) =>
    if least ≤ n ∧ n.isValidChar then some (Char.ofNat n, rest) else none
  | none => none

/-- Reads the escape behind a backslash. -/
def escape? : List Char → Option (Char × List Char)
  | '\x27' :: rest => some ('\x27', rest)
  | '"' :: rest => some ('"', rest)
  | '\\' :: rest => some ('\\', rest)
  | 'n' :: rest => some ('\n', rest)
  | 'r' :: rest => some ('\r', rest)
  | 't' :: rest => some ('\t', rest)
  | '0' :: rest => some ('\x00', rest)
  | 'x' :: rest => (hexPair? rest).bind fun read => byteEscape? read.1 read.2
  | 'u' :: rest => unicodeEscape? rest
  | _ => none

/-- Reads a text up to its closing quote, after skipping the first `skip` characters. -/
def quoted? : (skip : Nat) → List Char → Option (List Char × List Char)
  | _, [] => none
  | skip + 1, _ :: rest => quoted? skip rest
  | 0, c :: rest =>
    if c = '"' then some ([], rest)
    else if c = '\\' then
      match escape? rest with
      | some (d, after) =>
        (quoted? (rest.length - after.length) rest).map fun read => (d :: read.1, read.2)
      | none => none
    else (quoted? 0 rest).map fun read => (c :: read.1, read.2)

/-- Reads a raw text up to a quote with `hashes` number signs behind it. -/
def rawBody? (hashes : Nat) : List Char → Option (List Char × List Char)
  | [] => none
  | c :: rest =>
    if c = '"' ∧ (List.replicate hashes '#').isPrefixOf rest then some ([], rest.drop hashes)
    else (rawBody? hashes rest).map fun read => (c :: read.1, read.2)

/-- Reads a raw text, given what follows its `r`. -/
def raw? (cs : List Char) : Option (List Char × List Char) :=
  let hashes := (cs.takeWhile (· == '#')).length
  match cs.dropWhile (· == '#') with
  | '"' :: rest => rawBody? hashes rest
  | _ => none

/-- Reads a character up to its closing apostrophe; `\x` stands for ASCII only. -/
def charBody? : List Char → Option (List Char)
  | '\\' :: 'x' :: rest =>
    match hexPair? rest with
    | some (byte, '\x27' :: after) => if byte < 0x80 then some after else none
    | _ => none
  | '\\' :: rest =>
    match escape? rest with
    | some (_, '\x27' :: after) => some after
    | _ => none
  | _ :: '\x27' :: after => some after
  | _ => none

/-- Drops an escape of a byte string, given what follows its backslash; `\x` stands for any byte. -/
def byteStringEscape? : List Char → Option (List Char)
  | 'x' :: rest => (hexPair? rest).map Prod.snd
  | cs => (escape? cs).map Prod.snd

/-- What follows a byte string, after skipping the first `skip` characters of it. -/
def byteString? : (skip : Nat) → List Char → Option (List Char)
  | _, [] => none
  | skip + 1, _ :: rest => byteString? skip rest
  | 0, c :: rest =>
    if c = '"' then some rest
    else if c = '\\' then
      match byteStringEscape? rest with
      | some after => byteString? (rest.length - after.length) rest
      | none => none
    else byteString? 0 rest

/-- Reads a byte between apostrophes; it is no code point in braces. -/
def byte? : List Char → Option (Token × List Char)
  | '\\' :: 'u' :: _ => none
  | '\\' :: rest =>
    match byteStringEscape? rest with
    | some ('\x27' :: after) => some (.integer ⟨false, 0, some (.unsigned 8)⟩, after)
    | _ => none
  | c :: '\x27' :: after =>
    if c.toNat < 128 then some (.integer ⟨false, c.toNat, some (.unsigned 8)⟩, after) else none
  | _ => none

/-- The characters that are tokens by themselves, besides the opening parenthesis. -/
def signs : List Char := [')', '[', ']', '\x7b', '\x7d', ',', ':', '#', '!']

/-- Turns the characters of a text that was read into its token. -/
def textToken (read : List Char × List Char) : Token × List Char :=
  (.text (String.ofList read.1), read.2)

/-- Reads the token at the front of a text. -/
def token? : List Char → Option (Token × List Char)
  | '(' :: ')' :: rest => some (.empty, rest)
  | '(' :: rest => some (.opening rest, rest)
  | '"' :: rest => (quoted? 0 rest).map textToken
  | 'r' :: '"' :: rest => (raw? ('"' :: rest)).map textToken
  | 'r' :: '#' :: '"' :: rest => (raw? ('#' :: '"' :: rest)).map textToken
  | 'r' :: '#' :: '#' :: rest => (raw? ('#' :: '#' :: rest)).map textToken
  | 'b' :: '"' :: rest => (byteString? 0 rest).map (.bytes, ·)
  | 'b' :: 'r' :: '"' :: rest => (raw? ('"' :: rest)).map fun read => (.bytes, read.2)
  | 'b' :: 'r' :: '#' :: rest => (raw? ('#' :: rest)).map fun read => (.bytes, read.2)
  | 'b' :: '\x27' :: rest => byte? rest
  | '\x27' :: rest => (charBody? rest).map (.char, ·)
  | c :: rest =>
    if c ∈ signs then some (.sign c, rest)
    else if c.isDigit || c == '+' || c == '-' || c == '.' then number? (c :: rest)
    else ident? (c :: rest)
  | [] => none

/-- The tokens of a text, after skipping the first `skip` characters. -/
def tokensFrom : (skip : Nat) → List Char → Option (List Token)
  | _, [] => some []
  | skip + 1, _ :: rest => tokensFrom skip rest
  | 0, c :: rest =>
    if isSpace c then tokensFrom 0 rest
    else if c = '/' then
      match dropComment rest with
      | some after => tokensFrom (rest.length - after.length) rest
      | none => none
    else
      match token? (c :: rest) with
      | some (token, after) => (tokensFrom (rest.length - after.length) rest).map (token :: ·)
      | none => none

/-- The tokens of a text. -/
def tokens? (s : String) : Option (List Token) := tokensFrom 0 s.toList

end Encounter.Ron
