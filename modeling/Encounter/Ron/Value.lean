import Encounter.Ron.Wrapped

/-!
# RON values

A RON document is an optional header of extensions and one value. `Document.parse` reads it from its
text and refuses what nests too deeply.
-/

namespace Encounter.Ron

/-- A RON value. -/
inductive Value where
  /-- A name alone, such as `Npc`, or the empty tuple. -/
  | unit (name : Option String)
  /-- Named fields in parentheses, perhaps behind a name. -/
  | record (name : Option String) (fields : List (String × Value))
  /-- Values in parentheses, perhaps behind a name. -/
  | tuple (name : Option String) (items : List Value)
  | list (items : List Value)
  | map (entries : List (Value × Value))
  | some (value : Value)
  | none
  | bool (value : Bool)
  | integer (value : Integer)
  | float
  | text (value : String)
  | char
  | bytes

/-- The extensions that a header may name. -/
inductive Extension where
  | unwrapNewtypes
  | implicitSome
  | unwrapVariantNewtypes
  | explicitStructNames
  deriving DecidableEq, Repr

/-- The extension of that name. -/
def Extension.ofName? (name : String) : Option Extension :=
  if name = "unwrap_newtypes" then some unwrapNewtypes
  else if name = "implicit_some" then some implicitSome
  else if name = "unwrap_variant_newtypes" then some unwrapVariantNewtypes
  else if name = "explicit_struct_names" then some explicitStructNames
  else none

/-- The value that a reserved word stands for. -/
def Value.ofWord? (word : String) : Option Value :=
  if word = "true" then .some (.bool true)
  else if word = "false" then .some (.bool false)
  else if word = "None" then .some .none
  else if Ron.floatWords.contains word.toList then .some .float
  else Option.none

/-- The deepest nesting that a document may have. A bracket and its content count separately, `Some`
and its content once, and empty parentheses not at all. -/
def maxDepth : Nat := 128

/-- Does a bracket open named fields? -/
def opensRecord : List Token → Bool
  | .ident _ _ :: .sign ':' :: _ => true
  | _ => false

section Reading

variable (exts : List Extension)

mutual

/-- Reads a value. `fuel` bounds the number of steps, `depth` the nesting. -/
def value? : (fuel depth : Nat) → List Token → Option (Value × List Token)
  | 0, _, _ => none
  | fuel + 1, depth, tokens =>
    match tokens with
    | .integer value :: rest => some (.integer value, rest)
    | .float :: rest => some (.float, rest)
    | .text value :: rest => some (.text value, rest)
    | .char :: rest => some (.char, rest)
    | .bytes :: rest => some (.bytes, rest)
    | .empty :: rest => some (.unit none, rest)
    | .ident raw name :: rest =>
      if raw then named? fuel depth name rest
      else
        match Value.ofWord? name with
        | some value => some (value, rest)
        | none => if name = "Some" then wrapped? fuel depth rest else named? fuel depth name rest
    | .opening _ :: rest =>
      match depth with
      | 0 => none
      | depth + 1 => body? fuel depth none rest
    | .sign c :: rest =>
      match depth with
      | 0 => none
      | depth + 1 =>
        if c = '[' then (items? fuel depth ']' rest).map fun read => (.list read.1, read.2)
        else if c = '\x7b' then (entries? fuel depth rest).map fun read => (.map read.1, read.2)
        else none
    | [] => none

/-- Reads what stands behind a name. -/
def named? : (fuel depth : Nat) → String → List Token → Option (Value × List Token)
  | 0, _, _, _ => none
  | fuel + 1, depth, name, tokens =>
    match tokens, depth with
    | .opening _ :: _, 0 => none
    | .empty :: _, 0 => none
    | .opening _ :: rest, depth + 1 => body? fuel depth (some name) rest
    | .empty :: rest, _ + 1 => some (.tuple (some name) [], rest)
    | rest, _ => some (.unit (some name), rest)

/-- Reads what stands behind `Some`: a value in parentheses. Their content may go without parentheses of
its own under `unwrap_variant_newtypes`, and a value may go without them under `implicit_some`. -/
def wrapped? : (fuel depth : Nat) → List Token → Option (Value × List Token)
  | 0, _, _ => none
  | _, 0, _ => none
  | fuel + 1, depth + 1, tokens =>
    match tokens with
    | .empty :: rest =>
      if exts.contains .unwrapVariantNewtypes then some (.some (.unit none), rest) else none
    | .opening behind :: rest =>
      let content :=
        if exts.contains .unwrapVariantNewtypes then Wrapped.ofText? behind else some .value
      match content, depth with
      | some .nothing, _ => some (.some (.unit none), rest.tail)
      | some .fields, depth + 1 =>
        (fields? fuel depth rest).map fun read => (.some (.record none read.1), read.2)
      | some .items, depth + 1 =>
        (items? fuel depth ')' rest).map fun read => (.some (.tuple none read.1), read.2)
      | some .value, depth =>
        match value? fuel depth rest with
        | some (value, .sign ')' :: rest) => some (.some value, rest)
        | some (value, .sign ',' :: .sign ')' :: rest) => some (.some value, rest)
        | _ => none
      | _, _ => none
    | tokens =>
      if exts.contains .implicitSome then
        (value? fuel depth tokens).map fun read => (.some read.1, read.2)
      else none

/-- Reads the inside of parentheses. -/
def body? : (fuel depth : Nat) → Option String → List Token → Option (Value × List Token)
  | 0, _, _, _ => none
  | fuel + 1, depth, name, tokens =>
    if opensRecord tokens then
      (fields? fuel depth tokens).map fun read => (.record name read.1, read.2)
    else (items? fuel depth ')' tokens).map fun read => (.tuple name read.1, read.2)

/-- Reads values up to a closing bracket; a comma may stand behind the last one. -/
def items? : (fuel depth : Nat) → Char → List Token → Option (List Value × List Token)
  | 0, _, _, _ => none
  | fuel + 1, depth, close, tokens =>
    if tokens.head? = some (.sign close) then some ([], tokens.tail)
    else
      match depth with
      | 0 => none
      | inner + 1 =>
        match value? fuel inner tokens with
        | some (value, .sign c :: rest) =>
          if c = ',' then (items? fuel depth close rest).map fun read => (value :: read.1, read.2)
          else if c = close then some ([value], rest)
          else none
        | _ => none

/-- Reads named fields up to the closing parenthesis; a comma may stand behind the last one. -/
def fields? : (fuel depth : Nat) → List Token → Option (List (String × Value) × List Token)
  | 0, _, _ => none
  | fuel + 1, depth, tokens =>
    match tokens, depth with
    | .sign ')' :: rest, _ => some ([], rest)
    | .ident _ name :: .sign ':' :: rest, inner + 1 =>
      match value? fuel inner rest with
      | some (value, .sign ',' :: rest) =>
        (fields? fuel depth rest).map fun read => ((name, value) :: read.1, read.2)
      | some (value, .sign ')' :: rest) => some ([(name, value)], rest)
      | _ => none
    | _, _ => none

/-- Reads the entries of a map up to its closing brace; a comma may stand behind the last one. -/
def entries? : (fuel depth : Nat) → List Token → Option (List (Value × Value) × List Token)
  | 0, _, _ => none
  | fuel + 1, depth, tokens =>
    match tokens, depth with
    | .sign '\x7d' :: rest, _ => some ([], rest)
    | _, 0 => none
    | tokens, inner + 1 =>
      match value? fuel inner tokens with
      | some (key, .sign ':' :: rest) =>
        match value? fuel inner rest with
        | some (value, .sign ',' :: rest) =>
          (entries? fuel depth rest).map fun read => ((key, value) :: read.1, read.2)
        | some (value, .sign '\x7d' :: rest) => some ([(key, value)], rest)
        | _ => none
      | _ => none

end

end Reading

/-- Reads the names of extensions up to the closing brackets of a header. -/
def extensions? : List Token → Option (List Extension × List Token)
  | .ident _ name :: .sign ')' :: .sign ']' :: rest =>
    (Extension.ofName? name).map fun ext => ([ext], rest)
  | .ident _ name :: .sign ',' :: .sign ')' :: .sign ']' :: rest =>
    (Extension.ofName? name).map fun ext => ([ext], rest)
  | .ident _ name :: .sign ',' :: rest => do
    let ext ← Extension.ofName? name
    let (others, rest) ← extensions? rest
    return (ext :: others, rest)
  | _ => none

/-- Reads the headers in front of a value. -/
def headers? : (fuel : Nat) → List Token → Option (List Extension × List Token)
  | 0, _ => none
  | fuel + 1, tokens =>
    match tokens with
    | .sign '#' :: .sign '!' :: .sign '[' :: .ident false "enable" :: .opening _ :: rest => do
      let (exts, rest) ← extensions? rest
      let (others, rest) ← headers? fuel rest
      return (exts ++ others, rest)
    | .sign '#' :: _ => none
    | tokens => some ([], tokens)

/-- A value and the extensions named in front of it. -/
structure Document where
  extensions : List Extension
  value : Value

/-- Reads the document of a text; nothing but blanks and comments may follow the value. -/
def Document.parse (s : String) : Option Document := do
  let tokens ← tokens? s
  let fuel := 3 * tokens.length + 3
  let (extensions, rest) ← headers? fuel tokens
  match value? extensions fuel maxDepth rest with
  | some (value, []) => return ⟨extensions, value⟩
  | _ => none

end Encounter.Ron
