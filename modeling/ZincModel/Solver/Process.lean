import ZincModel.Files
import ZincModel.Log.Record
import ZincModel.Value.Display

/-!
# The solver process

The MiniZinc executable reads a model file in a workspace, a directory of its own that is empty before and
gone afterwards, and leaves its output beside it. What happens when it is started is not up to the program: it
may not start, not come to an end in time, or end with an exit status and some output; or the library that starts
processes gives up by itself. When it does so is said in `Solver.Starting`.
-/

namespace ZincModel.Solver

/-- Why the library that starts processes gives up by itself. -/
inductive Refusal where
  /-- A text for the operating system has a null character. -/
  | nullByte
  /-- The time limit is no number, but a value of this kind. -/
  | notNumber (kind : String)
  /-- The time limit is an integer beyond all finite numbers. -/
  | tooLarge
  /-- The time that is left is not a number. -/
  | notANumber
  /-- The time that is left is too long to wait for. -/
  | overlong (cause : Overlong)
  /-- What the process has written to a pipe is no text. -/
  | undecodable (cause : Text.Utf8.Malformed)
  deriving DecidableEq

def Refusal.fault : Refusal → Fault
  | nullByte => .content .nullByte
  | notNumber kind => .shape (.notAddable kind)
  | tooLarge => .tooLarge
  | notANumber => .content .wholeOfNan
  | overlong cause => .overlong cause
  | undecodable cause => .undecodable cause

/-- What comes of starting the process (`subprocess.run`). -/
inductive Outcome where
  | notFound
  | notPermitted
  | notExecutable
  /-- The operating system has another reason, for which it has a number, and may name a path. -/
  | unstarted (number : Nat) (reason : String) (path : Option String)
  | timedOut
  | finished (returncode : Int) (stderr : String) (output : Option Entry)
  | refused (cause : Refusal)

/-- What a run does not decide itself. The model file may not be written, with a complaint of the operating system,
and then the process comes to its outcome. The directory of the workspace is named by chance, and what is said of a
text that the YAML library refuses is up to this library. -/
structure Chance where
  workspace : String
  unwritable : Option String := none
  outcome : Outcome
  explain : List Char → String := fun _ => ""

/-- The name of the file with the output. -/
def outputName : String := "tmp.out"

namespace Chance

def modelPath (c : Chance) : String := c.workspace ++ "/tmp.mzn"

def outputPath (c : Chance) : String := c.workspace ++ "/" ++ outputName

end Chance

/-- The arguments of the process (`build_command`). -/
def command (executable modelPath outputPath solver : String) : List String :=
  [executable, modelPath, "-o", outputPath, "--solver", solver, "--output-mode", "json"]

/-- A process that was started: its arguments, its directory, the time it may take and the model it reads. -/
structure Call where
  arguments : List String
  directory : String
  timeout : Value
  source : List Char

/-- What a step of a run comes to: a result or fault, what is noted, and the processes that were started. -/
structure Step (α : Type) where
  result : Except Fault α
  records : List Log.Record := []
  calls : List Call := []

/-- A record of the part that runs processes. -/
def note (level : Log.Level) (message : String) : Log.Record := ⟨level, "mznbridge.runner", message.toList⟩

/-- Starts the process (`invoke`), and returns what it leaves if it ends well; an exit status other than zero is a
fault here and not in what follows. -/
def invoke (executable solver : String) (timeout : Value) (source : List Char) (chance : Chance) :
    Step (Option Entry) :=
  let arguments := command executable chance.modelPath chance.outputPath solver
  let started : List Log.Record := [note .debug ("Running: " ++ " ".intercalate arguments)]
  let calls : List Call := [⟨arguments, chance.workspace, timeout, source⟩]
  match chance.outcome with
  | .notFound => ⟨.error (.solverMissing executable), started, calls⟩
  | .notPermitted => ⟨.error (.solverNotRunnable executable), started, calls⟩
  | .notExecutable => ⟨.error (.file (.notExecutable executable)), started, calls⟩
  | .unstarted number reason path => ⟨.error (.file (.system number reason path)), started, calls⟩
  | .timedOut =>
    let fault : Except Fault (Option Entry) := do
      let shown ← timeout.textString
      throw (.process (.timedOut solver shown))
    ⟨fault, started, calls⟩
  | .finished returncode stderr output =>
    if returncode = 0 then ⟨.ok output, started, calls⟩
    else
      let ended := note .warning ("Solver " ++ solver ++ " exited with status " ++ toString returncode)
      ⟨.error (.process (.exited solver returncode stderr)), started ++ [ended], calls⟩
  | .refused cause => ⟨.error cause.fault, started, calls⟩

end ZincModel.Solver
