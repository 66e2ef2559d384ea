import ScriptGraph.CommandLine
import ScriptGraph.Json.Printer

/-!
# The program

Reads the files that the arguments name, runs the command, and prints the report
or the error.
-/

open ScriptGraph

/-- What is found at a path.  The system answers with its code 21 where a folder
is read as a file. -/
def readPath (path : String) : IO FileContent := do
  try
    return .text (← IO.FS.readFile path)
  catch cause =>
    match cause with
    | .inappropriateType _ 21 _ => return .folder
    | _ => return .missing

def settingNames : List String :=
  ["MAX_STEPS", "LOOP_INDEX_VARIABLE", "MAX_LOOP_ITERATIONS",
    "MAX_CALL_DEPTH"].map fun name => Environment.namePrefix ++ name

/-- How many numbers there are to draw, all in steps of the same width. -/
def drawable : Nat := 1 <<< 53

def drawFrom (seed : Nat) (node : String) : Float :=
  let generator := mkStdGen (seed + node.hash.toNat)
  let (drawn, _) := randNat generator 0 (drawable - 1)
  Float.ofNat drawn / Float.ofNat drawable

def main (arguments : List String) : IO UInt32 := do
  let named := ((Arguments.parse? arguments).map Arguments.files).getD []
  let texts ← named.mapM fun path => do
    return (path, ← readPath path)
  let assignments ← settingNames.mapM fun name => do
    return (← IO.getEnv name).map fun text => (name, text)
  let seed ← IO.rand 0 Int64.maxValue.toInt.toNat
  let read := fun path => (texts.lookup path).getD .missing
  match Command.run read (assignments.filterMap id) (drawFrom seed)
      arguments with
  | .ok report =>
    IO.println report.toJson.renderLines
    return if report.error.isSome then 1 else 0
  | .error cause =>
    IO.eprintln cause.message
    return UInt32.ofNat cause.exitCode
