import ZincModel.Fault
import ZincModel.Text.FileText
import ZincModel.Text.Line

/-!
# Files

A file system as a list of what stands at which path. A path is walked along part by part, from the directory
that the program is started in or from the root. Text files are UTF-8, and every line in them ends with `\n` once
they are read.
-/

namespace ZincModel

open Text

/-- What stands at a path. -/
inductive Entry where
  | file (bytes : List UInt8) (isExecutable : Bool)
  | directory
  deriving DecidableEq

/-- The names that lead to an entry from the starting directory. A path from the root starts with `/`, and one
that leaves the starting directory with `..`. -/
abbrev Path := List String

/-- What stands at which path. A directory is there when anything is in it. -/
abbrev Files := List (Path × Entry)

namespace Path

/-- The root of all directories. -/
def root : Path := ["/"]

/-- The file that stays empty, whatever is written to it. -/
def nullDevice : Path := root ++ ["dev", "null"]

/-- The parts of a path between slashes. -/
def parts (s : List Char) : List (List Char) :=
  match s with
  | [] => [[]]
  | c :: rest =>
    if c == '/' then [] :: parts rest
    else
      match parts rest with
      | part :: more => (c :: part) :: more
      | [] => [[c]]

/-- The path of a directory around the starting directory, or of itself. -/
def isOutward (path : Path) : Bool := path.all (· == "..")

/-- The path of the directory around another one. -/
def parent (path : Path) : Path :=
  if path = root then path
  else if isOutward path then path ++ [".."]
  else path.dropLast

/-- The part stays in the same directory. -/
def isStay (part : List Char) : Bool := part.isEmpty || part == ['.']

/-- The part leads to the directory around. -/
def isUp (part : List Char) : Bool := part == ['.', '.']

/-- The path that goes on from `path` with a part. -/
def step (path : Path) (part : List Char) : Path :=
  if isStay part then path
  else if isUp part then path.parent
  else path ++ [String.ofList part]

/-- Where the path that a text names starts. -/
def start (s : List Char) : Path := if s.head? = some '/' then root else []

/-- The path that a text names, without a look at what is there. -/
def ofText (s : String) : Path := (parts s.toList).foldl step (start s.toList)

end Path

namespace Files

/-- What is known to stand outside of the starting directory. -/
def elsewhere : Files :=
  [(Path.root ++ ["dev"], .directory), (Path.nullDevice, .file [] false), (Path.root ++ ["tmp"], .directory)]

/-- What stands at a path. -/
def find? (fs : Files) (path : Path) : Option Entry :=
  if path.isOutward || path == Path.root || fs.any fun e => path.length < e.1.length && path.isPrefixOf e.1 then
    some .directory
  else (fs.lookup path).or (elsewhere.lookup path)

/-- The greatest number of bytes in a part of a path. -/
def nameLimit : Nat := 255

/-- The greatest number of bytes in a path. -/
def pathLimit : Nat := 4095

/-- What a walk along a path comes to: an entry, or a place in a directory where none is yet; the path ends
there as that of a directory or not. -/
inductive Place where
  | taken (path : Path) (entry : Entry)
  | vacant (path : Path) (asDirectory : Bool)

/-- Walks on from `path`, where `entry` stands. -/
def walk (fs : Files) (path : Path) (entry : Entry) : List (List Char) → Except (String → FileFault) Place
  | [] => .ok (.taken path entry)
  | part :: rest =>
    match entry with
    | .file .. => .error .notDirectory
    | .directory =>
      let next := path.step part
      if Path.isStay part || Path.isUp part then walk fs next .directory rest
      else if nameLimit < (String.ofList part).utf8ByteSize then .error .nameTooLong
      else
        match fs.find? next with
        | some entry => walk fs next entry rest
        | none => if rest.all (·.isEmpty) then .ok (.vacant next (!rest.isEmpty)) else .error .notFound

/-- The place that a text names. -/
def placeOf (fs : Files) (path : String) : Except Fault Place :=
  if path.toList.contains '\x00' then .error (.content .nullByte)
  else if path = "" then .error (.file (.notFound path))
  else if pathLimit < path.utf8ByteSize then .error (.file (.nameTooLong path))
  else
    (fs.walk (Path.start path.toList) .directory (Path.parts path.toList)).mapError fun cause => .file (cause path)

/-- What a text names as a path. -/
def locate (fs : Files) (path : String) : Except Fault Entry := do
  match ← fs.placeOf path with
  | .taken _ entry => return entry
  | .vacant .. => throw (.file (.notFound path))

/-- Something stands at the path. -/
def exists? (fs : Files) (path : String) : Bool :=
  match fs.locate path with
  | .ok _ => true
  | .error _ => false

/-- The bytes of a file. -/
def readBytes (fs : Files) (path : String) : Except Fault (List UInt8) := do
  match ← fs.locate path with
  | .file bytes _ => return bytes
  | .directory => throw (.file (.isDirectory path))

/-- The text of a file, read in one piece. -/
def readText (fs : Files) (path : String) : Except Fault (List Char) := do
  let bytes ← fs.readBytes path
  let text ← (Utf8.decode bytes).mapError .undecodable
  return unifyNewlines text

/-- The text of a file, read in pieces of at most `size` characters, and the fault that ends it. -/
def readPieces (fs : Files) (path : String) (size : Nat) : Except Fault (List (List Char) × Option Fault) := do
  let bytes ← fs.readBytes path
  let (pieces, place) := FileText.pieces size bytes
  return (pieces, place.map .undecodable)

/-- Lets an entry, or nothing, stand at a path. -/
def place (fs : Files) (path : Path) (entry : Option Entry) : Files :=
  let others := fs.filter fun e => !path.isPrefixOf e.1
  match entry with
  | some entry => others ++ [(path, entry)]
  | none => others

/-- The paths that are passed on the way along parts. -/
def passed (path : Path) : List (List Char) → List Path
  | [] => []
  | part :: rest => path.step part :: passed (path.step part) rest

/-- The files with directories at those of the paths where nothing stands. -/
def makeDirectories (fs : Files) (paths : List Path) : Files :=
  paths.foldl (fun fs path => if (fs.find? path).isSome then fs else fs ++ [(path, .directory)]) fs

/-- Lets an entry stand at the path that a text names, and directories wherever the path goes through. -/
def provide (fs : Files) (path : String) (entry : Option Entry) : Files :=
  let way := passed (Path.start path.toList) (Path.parts path.toList).dropLast
  let fs := if entry.isSome then fs.makeDirectories way else fs
  fs.place (Path.ofText path) entry

/-- The files with a new or other file at a path, whose directory must be there. A file that is there already
stays executable if it was. -/
def write (fs : Files) (path : String) (bytes : List UInt8) : Except Fault Files := do
  match ← fs.placeOf path with
  | .taken p (.file _ isExecutable) =>
    return if p = Path.nullDevice then fs else fs.place p (some (.file bytes isExecutable))
  | .taken _ .directory => throw (.file (.isDirectory path))
  | .vacant _ true => throw (.file (.isDirectory path))
  | .vacant p false => return fs.place p (some (.file bytes false))

end Files

end ZincModel
