import ZincModel.Files
import ZincModel.Log.Record
import ZincModel.Number.Reading
import ZincModel.Value.Basic
import ZincModel.Yaml.Meaning

/-!
# Configuration of the solver

Where the MiniZinc executable is and how long it may run. An environment gives it by a variable, by a YAML file
that another variable names, or by an executable file `minizinc` in one of the directories of programs; the first of
them that is there counts.
-/

namespace ZincModel

/-- The executable, null if it is not known, and the time it may take in seconds, null if that is not
limited. -/
structure Config where
  executable : Value := .null
  timeout : Value := .null

/-- What the program finds when it is started: settings and files. -/
structure Environment where
  /-- The variables of the environment with their values. -/
  settings : List (String × String) := []
  files : Files := []

namespace Environment

/-- The value of a setting that is anything but an empty text. -/
def nonempty? (env : Environment) (name : String) : Option String := (env.settings.lookup name).filter (· ≠ "")

/-- The variable that gives the directories of programs. -/
def pathVariable : String := "PATH"

/-- The directories of programs where the variable is not set: those that the system has for it. -/
def defaultPath : String := "/bin:/usr/bin"

/-- The directories of programs, in the order in which they are looked through. -/
def programDirectories (env : Environment) : List String :=
  match (env.settings.lookup pathVariable).getD defaultPath with
  | "" => []
  | path => (path.toList.splitOn ':').map String.ofList

/-- The path of what has the name in a directory. -/
def inDirectory (directory name : String) : String :=
  if directory = "" ∨ directory.toList.getLast? = some '/' then directory ++ name else directory ++ "/" ++ name

/-- A program that can be run is at the path. -/
def isProgram (env : Environment) (path : String) : Bool :=
  match env.files.locate path with
  | .ok (.file _ isExecutable) => isExecutable
  | _ => false

/-- The paths where a program may be. -/
def programPaths (env : Environment) (name : String) : List String :=
  env.programDirectories.map (inDirectory · name)

/-- The path of a program that can be run. -/
def program? (env : Environment) (name : String) : Option String := (env.programPaths name).find? env.isProgram

end Environment

namespace Config

/-- The executable, which must be known (`require_executable`). -/
def requireExecutable (c : Config) : Except Fault Value :=
  if c.executable.isTrue then .ok c.executable else .error (.configuration .executableUnset)

/-- The number of seconds that a value gives. -/
def seconds (v : Value) : Except Fault Double :=
  match v with
  | .float _ x => .ok x
  | .int n => ofInt n
  | .bool b => ofInt (if b then 1 else 0)
  | .str s => ofText s.toList (shown s)
  | .bytes bs =>
    ofText (bs.map fun b => if b < 128 then Char.ofNat b.toNat else '?') (String.ofList (Text.quotedBytes bs))
  | v => .error (.shape (.notNumber v.fullKind))
where
  ofInt (n : Int) : Except Fault Double :=
    match Double.ofInt? n with
    | some x => .ok x
    | none => .error .tooLarge
  ofText (s : List Char) (shown : String) : Except Fault Double :=
    match Double.read? s with
    | some x => .ok x
    | none => .error (.content (.badNumber shown))

/-- The configuration that the data of a file gives. Empty data of any kind is an empty configuration. -/
def ofValue (path : String) (data : Value) : Except Fault Config :=
  match if data.isTrue then data.opened else .ofEntries [] with
  | .dict _ entries => do
    let timeout ←
      match (Value.lookup "timeout" entries).getD .null with
      | .null => pure .null
      | v => (seconds v).map .ofDouble
    return ⟨(Value.lookup "executable" entries).getD .null, timeout⟩
  | _ => .error (.configuration (.notMapping path))

/-- The configuration in a file (`from_yaml`). -/
def load (files : Files) (path : String) : Except Fault Config := do
  let (pieces, beyond) ← files.readPieces path Yaml.Input.pieceSize
  let (data, _) ← Yaml.read 2 (.ofPieces pieces beyond)
  ofValue path data

/-- The variable that gives the executable. -/
def executableVariable : String := "MINIZINC_PATH"

/-- The variable that names the file. -/
def fileVariable : String := "MZNBRIDGE_CONFIG"

/-- The name that the executable has among the programs. -/
def programName : String := "minizinc"

/-- What is noted about the configuration. -/
def noted (message : String) : List Log.Record := [⟨.debug, "mznbridge.config", message.toList⟩]

/-- The configuration that an environment gives, and what is noted about it (`from_env_or_file`). -/
def resolve (env : Environment) : Except Fault Config × List Log.Record :=
  match env.nonempty? executableVariable with
  | some executable =>
    (.ok ⟨.str executable, .null⟩, noted ("Using minizinc from " ++ executableVariable ++ ": " ++ executable))
  | none =>
    match env.nonempty? fileVariable with
    | some path =>
      if env.files.exists? path then (load env.files path, noted ("Loading solver config from " ++ path))
      else (.error (.configuration (.fileMissing path)), [])
    | none =>
      match env.program? programName with
      | some found => (.ok ⟨.str found, .null⟩, noted ("Using minizinc found on PATH: " ++ found))
      | none => (.ok {}, [])

end Config

end ZincModel
