import EsilLowering.CommandLine.Run

/-! # The program

Gathers what a run depends on, makes the run and writes what it came to. -/

namespace EsilLowering

/-- What stands at a path on the disk. -/
def lookOnDisk (path : String) : IO (Option FileEntry) := do
  try
    return some (.file (← IO.FS.readBinFile path).toList)
  catch
    | .inappropriateType .. => return some .directory
    | _ => return none

/-- All lines of a stream as one text. -/
partial def readAll (stream : IO.FS.Stream) (before : String) : IO String := do
  let line ← stream.getLine
  if line.isEmpty then return before else readAll stream (before ++ line)

/-- The variables that settings are read from, as far as they are set. -/
def readEnvironment : IO (Table String) := do
  let names := [Settings.architectureVariable, Settings.defaultSizeVariable, Settings.strictVariable]
  let given ← names.filterMapM fun name => do
    return (← IO.getEnv name).map fun value => (name, value)
  return .ofList given

/-- The surroundings of a run: the file its arguments name, and the input if they leave it to be read. -/
def gather (arguments : List String) : IO CommandLine.Surroundings := do
  let path? := CommandLine.path? arguments
  let entry? ← match path? with
    | some path => lookOnDisk path
    | none => pure none
  let input ← if CommandLine.readsInput arguments then readAll (← IO.getStdin) "" else pure ""
  return {
    input
    environment := ← readEnvironment
    find := fun path => if some path = path? then entry? else none }

end EsilLowering

/-- The command line. -/
def main (arguments : List String) : IO UInt32 := do
  let outcome := EsilLowering.CommandLine.run arguments (← EsilLowering.gather arguments)
  (← IO.getStdout).putStr (EsilLowering.CommandLine.textOfLines outcome.out)
  (← IO.getStderr).putStr (EsilLowering.CommandLine.textOfLines outcome.err)
  return outcome.exitCode.toNat.toUInt32
