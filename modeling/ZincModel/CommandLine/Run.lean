import ZincModel.CommandLine.Options
import ZincModel.Example.Australia
import ZincModel.Log.Setup
import ZincModel.Model.Origin
import ZincModel.Solver.Evaluation

/-!
# Running the program

What the program writes and how it ends, for a command line and for the demonstration. The standard output is
for programs and results, the standard error for what is noted and for complaints. Faults of the model, of the
configuration, of files and of the solver end the program with a complaint and status 2; others are not handled.
-/

namespace ZincModel.CommandLine

/-- How a run of the program ends: with a status, if it has one, or by a fault that is not handled. -/
structure Ending where
  status : Except Fault (Option Nat)
  output : List Char := []
  errors : List Char := []
  calls : List Solver.Call := []

/-- The fault is one that the program complains about itself. -/
def isHandled : Fault → Bool
  | .model _ => true
  | .duplicateName _ => true
  | .configuration _ => true
  | .solverMissing _ => true
  | .solverNotRunnable _ => true
  | .modelUnwritten .. => true
  | .process _ => true
  | .inconclusive .. => true
  | .file _ => true
  | _ => false

/-- What is shown of the records of a log that is set up from a level on. -/
def shownRecords (level : Log.Level) (records : List Log.Record) : List Char :=
  let (_, log) := ({} : Log.State).setup (.int level.number) .null
  (log.logAll records).1

/-- A line of the output. -/
def line (s : List Char) : List Char := s ++ ['\n']

/-- The end by a fault, after what was noted. -/
def fail (explain : List Char → String) (noted : List Char) (calls : List Solver.Call) (f : Fault) : Ending :=
  if isHandled f then
    { status := .ok (some 2), errors := noted ++ "error: ".toList ++ line (f.message explain).toList, calls := calls }
  else { status := .error f, errors := noted, calls := calls }

/-- The end after an evaluation of a model. -/
def report (explain : List Char → String) (noted : List Char) (m : Model) (e : Solver.Evaluation) : Ending :=
  match e.result with
  | .error f => fail explain noted e.calls f
  | .ok false => { status := .ok (some 1), output := line "UNSAT".toList, errors := noted, calls := e.calls }
  | .ok true =>
    let verdict := line "SAT".toList
    match Solver.listing e.store m.decision with
    | .error f => { status := .error f, output := verdict, errors := noted, calls := e.calls }
    | .ok values => { status := .ok (some 0), output := verdict ++ line values, errors := noted, calls := e.calls }

/-- The evaluation that the options ask for: they count more than the environment. -/
def evaluate (env : Environment) (o : Options) (s : Store) (m : Model) (chance : Solver.Chance) :
    Solver.Evaluation :=
  let limit (c : Config) : Config :=
    match o.timeout with
    | some x => { c with timeout := .ofDouble x }
    | none => c
  if o.minizinc ≠ "" then Solver.evaluate s m o.solver (limit ⟨.str o.minizinc, .null⟩) chance
  else
    let (config, records) := Config.resolve env
    match config with
    | .error f => ⟨.error f, s, records, []⟩
    | .ok config =>
      let e := Solver.evaluate s m o.solver (limit config) chance
      { e with records := records ++ e.records }

/-- Runs the program on a model file. -/
def runOptions (env : Environment) (o : Options) (path : String) (chance : Solver.Chance) : Ending :=
  let shown := shownRecords (if o.verbose then .debug else .warning)
  match Model.ofFile env.files path {} with
  | (.error f, _) => fail chance.explain [] [] f
  | (.ok m, s) =>
    if o.emit then
      match Program.source s m with
      | .error f => fail chance.explain [] [] f
      | .ok source =>
        { status := .ok (some 0), output := source, errors := shown [Program.generated source] }
    else
      let e := evaluate env o s m chance
      report chance.explain (shown e.records) m e

/-- Runs the program with a command line (`main`). -/
def run (env : Environment) (arguments : List String) (chance : Solver.Chance) : Ending :=
  match Options.ofWords arguments with
  | .error .help => { status := .ok (some 0), output := help.toList }
  | .error .argumentLost => { status := .error (.content .noArgument) }
  | .error (.fault f) => { status := .ok (some 2), errors := f.text.toList }
  | .ok o => runOptions env o (o.model.getD "") chance

/-! ## The demonstration -/

/-- A line across the page. -/
def rule (c : Char) : List Char := line (List.replicate 80 c)

/-- Colours the map of Australia with three colours: shows the program, and solves it if a solver is
configured. -/
def demonstrate (env : Environment) (chance : Solver.Chance) : Ending :=
  let shown := shownRecords .info
  match Example.australia (.int 3) {} with
  | (.error f, _) => { status := .error f }
  | (.ok m, s) =>
    let title := rule '=' ++ line "AUSTRALIA MAP COLOURING".toList ++ rule '='
    match Program.source s m with
    | .error f => { status := .error f, output := title }
    | .ok source =>
      let output := title ++ line source
      let (config, configRecords) := Config.resolve env
      match config with
      | .error f => { status := .error f, output := output, errors := shown configRecords }
      | .ok config =>
        let e := Solver.evaluate s m "gecode" config chance
        let errors := shown (configRecords ++ e.records)
        let ending : Ending := { status := .ok none, output := output, errors := errors, calls := e.calls }
        match e.result with
        | .error f =>
          match f with
          | .configuration _ | .solverMissing _ | .solverNotRunnable _ =>
            { ending with output := output ++ "Skipping solve: ".toList ++ line (f.message chance.explain).toList }
          | f => { ending with status := .error f }
        | .ok false => { ending with output := output ++ rule '-' ++ line "UNSAT".toList ++ rule '=' }
        | .ok true =>
          let output := output ++ rule '-' ++ line "SAT".toList
          match Solver.listing e.store m.decision with
          | .error f => { ending with status := .error f, output := output }
          | .ok values => { ending with output := output ++ line values ++ rule '=' }

end ZincModel.CommandLine
