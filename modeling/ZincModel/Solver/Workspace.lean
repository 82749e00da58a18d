import ZincModel.Solver.Evaluation

/-!
# Evaluations in the file system

What an evaluation does outside of the program. Its workspace is made as a new directory. The program for the model
is written to a file there, the process is started on it and leaves its output beside it, and the output is read.
However the evaluation ends, the workspace is then removed with everything in it. The history keeps what was done,
in its order.
-/

namespace ZincModel.Solver

/-- What the process leaves for its output. -/
def Outcome.output? : Outcome → Option Entry
  | finished _ _ output => output
  | _ => none

/-- Something that is done outside of the program. -/
inductive Deed where
  | create (directory : String)
  | write (path : String) (bytes : List UInt8)
  /-- A process is started, and leaves an output in its directory or none. -/
  | start (call : Call) (output : Option Entry)
  | read (path : String)
  | remove (directory : String)

/-- The files once it is done. -/
def Deed.change (d : Deed) (files : Files) : Files :=
  match d with
  | create directory => files.place (Path.ofText directory) (some .directory)
  | write path bytes => files.place (Path.ofText path) (some (.file bytes false))
  | start call (some entry) => files.place (Path.ofText (call.directory ++ "/" ++ outputName)) (some entry)
  | start _ none => files
  | read _ => files
  | remove directory => files.place (Path.ofText directory) none

namespace Deed

variable (files : Files)

@[simp] theorem change_create (directory : String) :
    (create directory).change files = files.place (Path.ofText directory) (some .directory) := rfl

@[simp] theorem change_write (path : String) (bytes : List UInt8) :
    (write path bytes).change files = files.place (Path.ofText path) (some (.file bytes false)) := rfl

@[simp] theorem change_start_some (call : Call) (entry : Entry) :
    (start call (some entry)).change files =
      files.place (Path.ofText (call.directory ++ "/" ++ outputName)) (some entry) := rfl

@[simp] theorem change_start_none (call : Call) : (start call none).change files = files := rfl

@[simp] theorem change_read (path : String) : (read path).change files = files := rfl

@[simp] theorem change_remove (directory : String) :
    (remove directory).change files = files.place (Path.ofText directory) none := rfl

end Deed

/-- The call of a process that is started. -/
def Deed.call? : Deed → Option Call
  | start call _ => some call
  | _ => none

/-- The variables and the files, with what has been noted and done. -/
structure World where
  store : Store
  files : Files
  records : List Log.Record := []
  history : List Deed := []

namespace World

def perform (d : Deed) (w : World) : World :=
  { w with files := d.change w.files, history := w.history ++ [d] }

def note (records : List Log.Record) (w : World) : World := { w with records := w.records ++ records }

/-- The processes that were started. -/
def calls (w : World) : List Call := w.history.filterMap Deed.call?

/-- Does something in a new directory, which is removed whatever that comes to (`solver_workspace`). -/
def within {α : Type} (directory : String) (body : World → Except Fault α × World) (w : World) :
    Except Fault α × World :=
  let (result, w) := body ((w.perform (.create directory)).note
    [Solver.note .debug ("Created solver workspace " ++ directory)])
  (result, w.perform (.remove directory))

/-- Reads the output of a solver that has ended well, and gives the decision variables their values. -/
def conclude (decision : List Ref) (solver path : String) (w : World) : Except Fault Bool × World :=
  let e := Solver.conclude w.store decision solver (w.files.find? (Path.ofText path))
  (e.result, { (w.perform (.read path)).note e.records with store := e.store })

/-- Writes the program and runs the solver on it, in a workspace that is there. -/
def work (p : Problem) (solver : String) (executable timeout : Value) (chance : Chance) (w : World) :
    Except Fault Bool × World :=
  let written := writeModel p.source chance
  let w := w.note written.records
  match written.result with
  | .error f => (.error f, w)
  | .ok source =>
    let w := w.perform (.write chance.modelPath (Text.Utf8.encode source))
    match executable with
    | .str executable =>
      let run := invoke executable solver timeout source chance
      let w := (run.calls.foldl (fun w call => w.perform (.start call chance.outcome.output?)) w).note run.records
      match run.result with
      | .error f => (.error f, w)
      | .ok _ => w.conclude p.decision solver chance.outputPath
    | other => (.error (.shape (.notText 0 other.fullKind)), w)

/-- Evaluates a problem, with a configuration if there is one (`evaluate`). -/
def evaluate (configured : Except Fault Config × List Log.Record) (p : Problem) (solver : String) (chance : Chance)
    (w : World) : Except Fault Bool × World :=
  let w := w.note configured.2
  match configured.1 with
  | .error f => (.error f, w)
  | .ok config =>
    match config.requireExecutable with
    | .error f => (.error f, w)
    | .ok executable => w.within chance.workspace (work p solver executable config.timeout chance)

end World

end ZincModel.Solver
