import ZincModel.Files
import ZincModel.Log.Hierarchy
import ZincModel.Log.Record
import ZincModel.Value.Display

/-!
# Setting up the log

The log of the program goes to the standard error, and to a file if one is given (`setup_logging`). Each set-up
replaces what the one before installed. A set-up that fails because of its level changes nothing; one that fails
because its file could not be opened has taken the handlers away by then.

Whether records of a level are taken from a part is decided when the first one comes, and stays so until the
next set-up, even if the part comes to belong to other parts meanwhile. A record that is taken and finds no handler
is left to the last resort, which shows its message alone.
-/

namespace ZincModel.Log

/-- Where records are written. -/
inductive Target where
  | standardError
  | file (path : Path)
  deriving DecidableEq

/-- Takes the records from a level on to a target. -/
structure Handler where
  target : Target
  level : Int
  deriving DecidableEq

/-- What a log finds where it works: a working directory, files, and a last resort for records. -/
structure Site where
  /-- The names of the directories that lead from the root to the working directory. -/
  here : List String := []
  /-- What stands at which path from the root. -/
  files : Files := []
  /-- The paths at which the operating system opens no file for other reasons than what stands there. -/
  refused : List (Path × Nat × String) := []
  /-- The level from which on the last resort shows records, if there is one. -/
  lastResort : Option Int := some Level.warning.number

/-- The state of the log: the level from which on records are taken, who takes them, and what is in the files
that have been opened. -/
structure State where
  site : Site := {}
  level : Int := 0
  handlers : List Handler := []
  files : List (Path × List Char) := []
  /-- The parts that have been used. -/
  parts : List String := []
  /-- Whether records of a level are taken from a part, where that has been decided. -/
  decisions : List ((String × Int) × Bool) := []

/-- The level that counts where none is set. -/
def defaultLevel : Int := Level.warning.number

/-- The number that a value gives as a level. -/
def levelOf (v : Value) : Except Fault Int :=
  match v with
  | .int n => .ok n
  | .bool b => .ok (if b then 1 else 0)
  | .str name =>
    match Level.ofName? name with
    | some level => .ok level.number
    | none => .error (.content (.badLevelName name))
  | v => do
    let shown ← v.displayed
    throw (.shape (.badLevel shown))

/-- The path of a text starts with two slashes and no third one. These are kept. -/
def startsTwice (s : List Char) : Bool := "//".toList.isPrefixOf s && !"///".toList.isPrefixOf s

namespace Site

/-- The path from the root that a text names. -/
def pathOf (site : Site) (s : String) : Path :=
  match Path.ofText s with
  | "/" :: names => "/" :: names
  | names =>
    let around := names.takeWhile (· == "..")
    "/" :: site.here.take (site.here.length - around.length) ++ names.drop around.length

/-- The full path that a text names, as messages show it. -/
def fullPath (site : Site) (s : String) : String :=
  (if startsTwice s.toList then "//" else "/") ++ "/".intercalate (site.pathOf s).tail

/-- What stands where once these files have been opened. -/
def filesWith (site : Site) (opened : List Path) : Files :=
  opened.map (fun path => (path, .file [] false)) ++ ("/" :: site.here, .directory) :: site.files

/-- The file to be opened at a path, whose directory must be there. -/
def openFile (site : Site) (opened : List Path) (path : String) : Except Fault Path :=
  if path.toList.contains '\x00' then .error (.content .nullByte)
  else
    let full := site.fullPath path
    match site.refused.lookup (site.pathOf path) with
    | some (number, reason) => .error (.file (.system number reason (some full)))
    | none =>
      if Files.pathLimit < full.utf8ByteSize then .error (.file (.nameTooLong full))
      else
        match (site.filesWith opened).walk Path.root .directory ((site.pathOf path).tail.map String.toList) with
        | .ok (.taken _ .directory) => .error (.file (.isDirectory full))
        | .ok (.taken p (.file ..)) => .ok p
        | .ok (.vacant p _) => .ok p
        | .error cause => .error (.file (cause full))

/-- The file that a value names, if it names one. -/
def fileOf (site : Site) (opened : List Path) (v : Value) : Except Fault (Option Path) :=
  if !v.isTrue then .ok none
  else
    match v with
    | .str path => (site.openFile opened path).map some
    | v => .error (.shape (.notPath v.fullKind))

/-- The last resort shows records of this level. -/
def showsLast (site : Site) (level : Int) : Bool :=
  match site.lastResort with
  | some least => least ≤ level
  | none => false

end Site

namespace State

/-- Empties a file, or makes it. -/
def clear (path : Path) (s : State) : State :=
  { s with files := s.files.filter (·.1 != path) ++ [(path, [])] }

/-- Adds text to the end of a file. The null device stays empty. -/
def append (path : Path) (text : List Char) (s : State) : State :=
  if path = Path.nullDevice then s
  else { s with files := s.files.map fun f => if f.1 = path then (f.1, f.2 ++ text) else f }

/-- Sets up the log from a level on, with a file if one is named. -/
def setup (level logFile : Value) (s : State) : Except Fault Unit × State :=
  match levelOf level with
  | .error f => (.error f, s)
  | .ok n =>
    match s.site.fileOf (s.files.map (·.1)) logFile with
    | .error f => (.error f, { s with level := n, decisions := [], handlers := [] })
    | .ok none => (.ok (), { s with level := n, decisions := [], handlers := [⟨.standardError, n⟩] })
    | .ok (some path) =>
      let handlers : List Handler := [⟨.standardError, n⟩, ⟨.file path, n⟩]
      (.ok (), { s.clear path with level := n, decisions := [], handlers := handlers })

/-- The part with a name belongs to the program. -/
def owns (logger : String) (s : State) : Bool := isPart s.parts logger

/-- The level from which on records are taken from a part. -/
def effectiveLevel (logger : String) (s : State) : Int :=
  if s.owns logger && s.level ≠ 0 then s.level else defaultLevel

/-- Records of this level are taken from a part. -/
def decide (logger : String) (level : Int) (s : State) : Bool :=
  match s.decisions.lookup (logger, level) with
  | some decision => decision
  | none => 0 < level && s.effectiveLevel logger ≤ level

/-- The state after a part has been used for a record of this level. -/
def used (logger : String) (level : Int) (s : State) : State :=
  let s := { s with parts := logger :: s.parts }
  { s with decisions := ((logger, level), s.decide logger level) :: s.decisions }

/-- There are handlers for records of a part. -/
def serves (logger : String) (s : State) : Bool := s.owns logger && !s.handlers.isEmpty

/-- Writes a line where a handler takes it to; what goes to the standard error is returned. -/
def write (level : Int) (text : List Char) (s : State) (h : Handler) : List Char × State :=
  if h.level ≤ level then
    match h.target with
    | .standardError => (text, s)
    | .file path => ([], s.append path text)
  else ([], s)

/-- Writes a line to all who take it. -/
def writeAll (level : Int) (text : List Char) : List Handler → State → List Char × State
  | [], s => ([], s)
  | h :: rest, s =>
    let (shown, s) := s.write level text h
    let (more, s) := writeAll level text rest s
    (shown ++ more, s)

/-- Logs a record; what goes to the standard error is returned. -/
def log (logger : String) (level : Int) (message : List Char) (s : State) : List Char × State :=
  let s := s.used logger level
  if s.decide logger level then
    if s.serves logger then writeAll level (line level logger message) s.handlers s
    else if s.site.showsLast level then (bareLine message, s)
    else ([], s)
  else ([], s)

/-- Logs records one after the other. -/
def logAll : List Record → State → List Char × State
  | [], s => ([], s)
  | r :: rest, s =>
    let (shown, s) := s.log r.logger r.level.number r.message
    let (more, s) := logAll rest s
    (shown ++ more, s)

end State

end ZincModel.Log
