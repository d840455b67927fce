import MismatchReport.Command.Run

/-!
# The command

Gathers the files that the arguments name, runs, and prints.
-/

namespace MismatchReport

open Command

def readBytes? (path : Text) : IO (Option ByteArray) := do
  try
    return some (← IO.FS.readBinFile (String.ofList path))
  catch _ => return none

def readNamed (paths : List Text) : IO (List (Text × ByteArray)) := do
  let contents ← paths.mapM fun path => do return (path, ← readBytes? path)
  return contents.filterMap fun (path, bytes) => bytes.map (path, ·)

def variableNames : List Text := ["COLUMNS", "NO_COLOR"]

def readVariables : IO (List (Text × Text)) := do
  let values ← variableNames.mapM fun name => do
    return (name, ← IO.getEnv (String.ofList name))
  return values.filterMap fun (name, value) => value.map fun value => (name, value.toList)

def gather (words : List Text) : IO Surroundings := do
  let paths := match parseArguments words with
    | .ok arguments => arguments.snapshot :: arguments.config.toList
    | .error _ => []
  let entries ← readNamed paths
  let input ← if paths.any isStandardInput then (← IO.getStdin).readBinToEnd
    else pure ByteArray.empty
  return {
    files := fun path => entries.lookup path
    input
    environment := ← readVariables
    isTerminal := ← (← IO.getStdout).isTty }

def complaint? (outcome : Outcome) : Option Text :=
  match outcome.failure, outcome.misuse with
  | some failure, _ => some failure.message
  | none, some misuse => some misuse.message
  | none, none => none

end MismatchReport

open MismatchReport in
def main (words : List String) : IO UInt32 := do
  let words := words.map String.toList
  let outcome := Command.execute (← gather words) words
  let stdout ← IO.getStdout
  stdout.putStr (String.ofList outcome.output)
  stdout.flush
  if let some complaint := complaint? outcome then
    IO.eprintln ("error: " ++ String.ofList complaint)
  return UInt32.ofNat outcome.code
