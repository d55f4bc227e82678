import Encounter.Binding

/-!
# Loading binding files

The bindings of a data directory are kept in its file `bindings.ron`, in UTF-8. Errors name the file.
-/

namespace Encounter

/-- Why a file could not be read. -/
inductive ReadFailure where
  | missing
  | notUtf8
  deriving DecidableEq, Repr

/-- The reason as the system states it. -/
def ReadFailure.message : ReadFailure → String
  | missing => "No such file or directory (os error 2)"
  | notUtf8 => "stream did not contain valid UTF-8"

/-- Why the bindings of a file could not be loaded. -/
inductive LoadFailure where
  | read (path : String) (cause : ReadFailure)
  | binding (path : String) (cause : BindingError)
  deriving DecidableEq, Repr

/-- The text of the error. -/
def LoadFailure.message : LoadFailure → String
  | read path cause => "Failed to read file " ++ path ++ ": " ++ cause.message
  | binding path cause => "Failed to load bindings " ++ path ++ ": " ++ cause.message

namespace Binding

/-- The name of the file that holds the bindings of a data directory. -/
def fileName : String := "bindings.ron"

/-- The path of the file that holds the bindings of a data directory. -/
def pathIn (directory : String) : String :=
  if directory.isEmpty || directory.endsWith "/" then directory ++ fileName
  else directory ++ "/" ++ fileName

/-- The bindings of a data directory, given the content of its binding file if there is one. -/
def load (directory : String) (content : Option ByteArray) : Except LoadFailure (List Binding) :=
  let path := pathIn directory
  match content with
  | none => .error (.read path .missing)
  | some bytes =>
    match String.fromUTF8? bytes with
    | none => .error (.read path .notUtf8)
    | some text =>
      match parse text with
      | .ok bindings => .ok bindings
      | .error cause => .error (.binding path cause)

end Binding

end Encounter
