import DocumentQuery.CommandLine

/-!
# The program

Reads the files and the variables that an invocation needs, prints what the invocation gives, and ends
with 0, with 1 if it fails, and with 2 if the arguments cannot be used.
-/

namespace DocumentQuery.Program

/-- How the program is used. -/
def usage : String :=
  "usage: [--config DIR] run|explain --model FILE --query FILE [--data FILE] [--param NAME=VALUE]..."

/-- The variables that take precedence over the settings file. -/
def watchedNames : List String :=
  ["DOCQL_PARALLEL_INCLUDES", "DOCQL_MAX_IN_VALUES", "DOCQL_MAX_NOT_IN_VALUES", "DOCQL_LOG"]

/-- The variables that are set. -/
def readEnvironment : IO Environment := do
  let found ← watchedNames.mapM fun name => return (← IO.getEnv name).map (name, ·)
  return Table.ofList (found.filterMap id)

/-- The files that can be read. -/
def readFiles (paths : List String) : IO (Table String) := do
  let found ← paths.mapM fun (path : String) => do
    try
      return some (path, ← IO.FS.readFile path)
    catch _ => return none
  return Table.ofList (found.filterMap id)

/-- Runs the program and returns its exit code. -/
def run (arguments : List String) : IO UInt32 := do
  match Invocation.ofArguments? arguments with
  | none =>
    IO.eprintln usage
    return 2
  | some invocation =>
    match invocation.run (← readFiles invocation.paths) (← readEnvironment) with
    | .ok text =>
      IO.println text
      return 0
    | .error fault =>
      IO.eprintln ("Error: " ++ fault.message)
      return 1

end DocumentQuery.Program

/-- The program. -/
def main (arguments : List String) : IO UInt32 :=
  DocumentQuery.Program.run arguments
