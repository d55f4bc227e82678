import Encounter.Console.Basic

/-!
# The console on standard input and output
-/

open Encounter

/-- Reads lines and prints what they cause until a line ends the program or the input ends. -/
partial def converse (console : Console) (input : IO.FS.Stream) : IO Unit := do
  let line ← input.getLine
  if line.isEmpty then return
  match console.enter line with
  | none => return
  | some (console, printed) =>
    printed.forM IO.println
    converse console input

/-- The content of the binding file in a data directory. -/
def bindingContent (directory : String) : IO (Option ByteArray) := do
  try
    return some (← IO.FS.readBinFile (Binding.pathIn directory))
  catch _ => return none

/-- Starts the console with the configuration of the environment. -/
def main : IO UInt32 := do
  let names := ["SCRIPT_EVENT_BUFFER", "SCRIPT_COMMAND_BUFFER", "SCRIPT_PARTY_SIZE",
    "SCRIPT_PLAYER_LEVEL", "SCRIPT_DATA_DIR", "SCRIPT_LOG_DIR"]
  let settings ← names.filterMapM fun name => do
    return (← IO.getEnv name).map fun value => (name, value)
  let config := Console.Config.ofLookup fun name => settings.lookup name
  let content ← match config.dataDir with
    | some directory => bindingContent directory
    | none => pure none
  match Console.loadRegistry config content with
  | .error error =>
    IO.eprintln ("Error: " ++ error.message)
    return 1
  | .ok registry =>
    let (console, printed) := Console.start config registry
    printed.forM IO.println
    converse console (← IO.getStdin)
    return 0
