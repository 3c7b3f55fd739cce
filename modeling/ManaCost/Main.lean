import ManaCost.CommandLine.Plain
import ManaCost.Environment

namespace ManaCost.CommandLine

/-!
# The program

The program runs on the plain platform.  Its settings are looked for under their names in capitals
and, over these, in small letters; it reads no file.
-/

/-- The variables that settings are looked for in. -/
def variableNames : List String :=
  let names := "log_level" :: [Setting.colorPaysGeneric, .failOnExcess, .jsonIndent].map Setting.name
  names.map (·.map Char.toUpper) ++ names

/-- The variables that are set. -/
def readEnvironment : IO (List (String × String)) := do
  let found ← variableNames.mapM fun name => do
    let value? ← IO.getEnv name
    return value?.map fun value => (name, value)
  return found.filterMap id

/-- Show what a run came to. -/
def Outcome.report : Outcome → IO UInt32
  | .finished exitCode output errors => do
      IO.print output
      IO.eprint errors
      return exitCode.toUInt32
  | .misused => do
      IO.eprintln "Usage: manacost [-v] (parse|symbol|scan|pay|compare|colors) [OPTIONS] ARGUMENTS"
      return 2
  | .badSettings settings => do
      for setting in settings do
        IO.eprintln (setting.name ++ ": " ++ setting.problem)
      return 1
  | .badLogLevel _ => do
      IO.eprintln "There is no such log level"
      return 1
  | .unwritten _ => do
      IO.eprintln "The report cannot be written"
      return 1

end ManaCost.CommandLine

/-- Run the program on its arguments. -/
def main
    (arguments : List String) :
    IO UInt32 := do
  let environment ← ManaCost.CommandLine.readEnvironment
  (ManaCost.CommandLine.run .plain (.ofVariables environment []) arguments).report
