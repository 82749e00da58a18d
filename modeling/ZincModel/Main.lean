import ZincModel.CommandLine.Run

/-!
# The program

Gives the command line, the environment and the files that they name to `CommandLine.run`, and writes what comes
of it. The solver is not started from here: whoever has run it on a program that `--emit` wrote leaves its output
as `tmp.out` in the current directory, and this output is what a model is evaluated by.
-/

namespace ZincModel.CommandLine

/-- What stands at a path. -/
def readEntry (path : String) : IO (Option Entry) := do
  try
    let bytes ← IO.FS.readBinFile path
    return some (.file bytes.toList true)
  catch
    | .inappropriateType .. => return some .directory
    | _ => return none

/-- The files among those that may be asked for. -/
def readFiles (paths : List String) : IO Files :=
  paths.foldlM
    (fun (files : Files) (path : String) => do return files.provide path (← readEntry path))
    ([] : Files)

/-- The variables of the environment that count. -/
def readSettings : IO (List (String × String)) :=
  [Config.executableVariable, Config.fileVariable, Environment.pathVariable].filterMapM fun name => do
    return (← IO.getEnv name).map fun value => (name, value)

/-- The model file that a command line names. -/
def modelPaths (arguments : List String) : List String :=
  match Options.ofWords arguments with
  | .ok o => o.model.toList
  | .error _ => []

/-- Runs the program with a command line; its exit status. -/
def runHere (arguments : List String) : IO UInt32 := do
  let settings ← readSettings
  let named := settings.filterMap fun v => if v.1 = Config.fileVariable then some v.2 else none
  let programs := Environment.programPaths ⟨settings, []⟩ Config.programName
  let files ← readFiles (modelPaths arguments ++ named ++ programs)
  let chance : Solver.Chance := { workspace := ".", outcome := .finished 0 "" (← readEntry Solver.outputName) }
  let ending := run ⟨settings, files⟩ arguments chance
  (← IO.getStdout).putStr (String.ofList ending.output)
  (← IO.getStderr).putStr (String.ofList ending.errors)
  match ending.status with
  | .ok status => return UInt32.ofNat (status.getD 0)
  | .error f =>
    (← IO.getStderr).putStrLn (f.message chance.explain)
    return 1

end ZincModel.CommandLine

/-- The program. -/
def main (arguments : List String) : IO UInt32 := ZincModel.CommandLine.runHere arguments
