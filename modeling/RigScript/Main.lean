import RigScript.Document
import RigScript.Scene.Sample

/-!
# The command line

Converts the scene in a file, with options from a second file, and prints the report and the
changes. Without arguments the sample scene is converted.
-/

open RigScript

/-- The text of a file. -/
def readText (path : String) : IO String :=
  IO.FS.readFile path

/-- Reads the files that are named, converts, and prints what came of it. -/
def main (args : List String) : IO UInt32 := do
  let scene ← match args with
    | [] => pure (some Scene.sample)
    | path :: _ => Scene.parse? <$> readText path
  let options ← match args with
    | _ :: path :: _ => some <$> readText path
    | _ => pure none
  match convertDocument scene options with
  | .ok parts =>
    for part in parts do
      IO.println part
    return 0
  | .error e =>
    IO.eprintln ("Error: " ++ e.message)
    return 1
