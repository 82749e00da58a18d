import ZincModel.Model.Basic
import ZincModel.Program.Source
import ZincModel.Solution.Assignment
import ZincModel.Solver.Config
import ZincModel.Solver.Process

/-!
# Evaluating a model

The program for a model is written to a file, the solver is run on it, and its output is read: the model is
satisfiable, and the decision variables have values then, or it is not. Everything else is a fault. Variables
change only if the output holds a solution.
-/

namespace ZincModel.Solver

/-- What an evaluation comes to: whether the model is satisfiable, the variables afterwards, what was noted, and
the processes that were started. -/
structure Evaluation where
  result : Except Fault Bool
  store : Store
  records : List Log.Record
  calls : List Call

/-- A record of the part that evaluates models. -/
def noteResult (level : Log.Level) (message : String) : Log.Record :=
  ⟨level, "mznbridge.evaluation", message.toList⟩

/-- The program, once it is in the model file (`save_model_file`). It is generated before the file is opened. -/
def writeModel (source : Except Fault (List Char)) (chance : Chance) : Step (List Char) :=
  match source with
  | .error f => ⟨.error f, [], []⟩
  | .ok source =>
    match chance.unwritable with
    | some complaint =>
      ⟨.error (.modelUnwritten chance.modelPath (.unwritable complaint)), [Program.generated source], []⟩
    | none => ⟨.ok source, [Program.generated source], []⟩

/-- Reads the output of a solver that has ended well, for the decision variables of a model. -/
def conclude (s : Store) (decision : List Ref) (solver : String) (output : Option Entry) : Evaluation :=
  let i := Solution.interpret s decision output
  match i.status with
  | .error f => ⟨.error f, i.store, i.records, []⟩
  | .ok .unknown =>
    let first := String.ofList (Solution.firstLine output)
    let noted := noteResult .warning ("Inconclusive solver output: " ++ shown first)
    ⟨.error (.inconclusive solver first), i.store, i.records ++ [noted], []⟩
  | .ok status =>
    let noted := noteResult .info ("Solver " ++ solver ++ ": " ++ status.spelling)
    ⟨.ok (status == .satisfied), i.store, i.records ++ [noted], []⟩

/-- What is evaluated: the program of a model, and its decision variables. -/
structure Problem where
  source : Except Fault (List Char)
  decision : List Ref

/-- The problem that a model poses. -/
def problemOf (s : Store) (m : Model) : Problem := ⟨Program.source s m, m.decision⟩

/-- Evaluates a problem with a solver that is found by a configuration. -/
def evaluateProblem (s : Store) (p : Problem) (solver : String) (config : Config) (chance : Chance) : Evaluation :=
  match config.requireExecutable with
  | .error f => ⟨.error f, s, [], []⟩
  | .ok executable =>
    let created := note .debug ("Created solver workspace " ++ chance.workspace)
    let written := writeModel p.source chance
    let records := created :: written.records
    match written.result with
    | .error f => ⟨.error f, s, records, []⟩
    | .ok source =>
      match executable with
      | .str executable =>
        let run := invoke executable solver config.timeout source chance
        let records := records ++ run.records
        match run.result with
        | .error f => ⟨.error f, s, records, run.calls⟩
        | .ok output =>
          let conclusion := conclude s p.decision solver output
          { conclusion with records := records ++ conclusion.records, calls := run.calls }
      | other => ⟨.error (.shape (.notText 0 other.fullKind)), s, records, []⟩

/-- Evaluates a model with a solver that is found by a configuration (`evaluate`). -/
def evaluate (s : Store) (m : Model) (solver : String) (config : Config) (chance : Chance) : Evaluation :=
  evaluateProblem s (problemOf s m) solver config chance

/-- Evaluates a problem with a solver that an environment configures. -/
def evaluateProblemIn (env : Environment) (s : Store) (p : Problem) (solver : String) (chance : Chance) :
    Evaluation :=
  let (config, records) := Config.resolve env
  match config with
  | .error f => ⟨.error f, s, records, []⟩
  | .ok config =>
    let evaluation := evaluateProblem s p solver config chance
    { evaluation with records := records ++ evaluation.records }

/-- A line with the name and value of a variable. -/
def listed (v : Variable) : Except Fault (List Char) := do
  let value ← v.value.text
  return v.name.toList ++ " = ".toList ++ value

/-- A line for each variable among what is handed over. -/
def listingOfGiven (s : Store) (given : List (Given Ref)) : Except Fault (List Char) := do
  let lines ← given.mapM fun g => do
    let r ← g.require "name"
    listed (s.get r)
  return Text.join ['\n'] lines

/-- A line for each variable with its name and value (`format_variables`). -/
def listing (s : Store) (refs : List Ref) : Except Fault (List Char) := listingOfGiven s (refs.map .proper)

end ZincModel.Solver
