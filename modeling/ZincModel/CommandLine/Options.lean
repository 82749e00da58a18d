import ZincModel.Number.Reading
import ZincModel.Text.Quoted

/-!
# Options of the command line

The command line is the path of a model file with options before and after it. A long option can be shortened
as long as only one begins like that; its argument follows it as the next word or behind an equals sign. Short
options, none of which has an argument, can share a word; what follows one of them in its word must be others of
them, and an equals sign behind the first one is passed over. Behind the word `--` no word is an option. A word
that looks like a negative number, or that begins with a hyphen but holds a space, is no option either.
-/

namespace ZincModel.CommandLine

open Text

/-- The options. -/
inductive Flag where
  | help
  | solver
  | minizinc
  | timeout
  | emit
  | verbose
  deriving DecidableEq, Repr

namespace Flag

/-- The spellings of an option. -/
def spellings : Flag → List String
  | help => ["-h", "--help"]
  | solver => ["--solver"]
  | minizinc => ["--minizinc"]
  | timeout => ["--timeout"]
  | emit => ["--emit"]
  | verbose => ["-v", "--verbose"]

/-- All options. -/
def all : List Flag := [help, solver, minizinc, timeout, emit, verbose]

/-- The spellings of all options. -/
def table : List (String × Flag) := all.flatMap fun f => f.spellings.map (·, f)

/-- The option has an argument. -/
def takesArgument : Flag → Bool
  | solver => true
  | minizinc => true
  | timeout => true
  | _ => false

/-- The option with a spelling. -/
def ofSpelling? (s : String) : Option Flag := table.lookup s

end Flag

/-- What is wrong with a command line. -/
inductive UsageFault where
  | ambiguous (word : String) (matching : List String)
  | argumentMissing (flag : Flag)
  | argumentSurplus (flag : Flag) (argument : String)
  | badNumber (flag : Flag) (argument : String)
  | modelMissing
  | unrecognized (words : List String)
  deriving DecidableEq, Repr

/-- A complaint about an option. -/
def Flag.complaint (f : Flag) (message : String) : String :=
  "argument " ++ "/".intercalate f.spellings ++ ": " ++ message

/-- A word between quotes. -/
def quotedWord (s : String) : String := String.ofList (quoted s.toList)

def UsageFault.message : UsageFault → String
  | ambiguous word matching => "ambiguous option: " ++ word ++ " could match " ++ ", ".intercalate matching
  | argumentMissing flag => flag.complaint "expected one argument"
  | argumentSurplus flag argument => flag.complaint ("ignored explicit argument " ++ quotedWord argument)
  | badNumber flag argument => flag.complaint ("invalid float value: " ++ quotedWord argument)
  | modelMissing => "the following arguments are required: model"
  | unrecognized words => "unrecognized arguments: " ++ " ".intercalate words

/-! ## Words -/

/-- What a word of the command line is. -/
inductive Word where
  /-- An option in the spelling that the word uses or begins, and what follows it in the word. -/
  | flag (flag : Flag) (spelling : String) (tail : Option String)
  | unknown (word : String)
  | plain (word : String)
  | separator
  deriving DecidableEq, Repr

/-- The text in front of the first equals sign, and what is behind it. -/
def splitAssignment (s : String) : String × Option String :=
  match s.toList.span (· != '=') with
  | (front, []) => (String.ofList front, none)
  | (front, _ :: back) => (String.ofList front, some (String.ofList back))

/-- The options that a word may stand for, shortened or with something behind a short option. -/
def candidates (s : String) : List Word :=
  match s.toList with
  | '-' :: '-' :: _ =>
    let (start, tail) := splitAssignment s
    Flag.table.filterMap fun e => if start.toList.isPrefixOf e.1.toList then some (.flag e.2 e.1 tail) else none
  | '-' :: c :: rest =>
    Flag.table.filterMap fun e =>
      if e.1.toList = ['-', c] then some (.flag e.2 e.1 (some (String.ofList rest)))
      else if s.toList.isPrefixOf e.1.toList then some (.flag e.2 e.1 none)
      else none
  | _ => []

/-- The digits of any script. -/
def isAnyDigit (c : Char) : Bool := (decimalDigit? c).isSome

/-- The word looks like a negative number. -/
def isNegativeNumber (s : List Char) : Bool :=
  match s with
  | '-' :: rest =>
    let rest := if rest.getLast? = some '\n' then rest.dropLast else rest
    match rest.dropWhile isAnyDigit with
    | [] => !rest.isEmpty
    | '.' :: fraction => !fraction.isEmpty && fraction.all isAnyDigit
    | _ => false
  | _ => false

/-- What a word is; a fault if it is short for several options. -/
def classify (s : String) : Except UsageFault Word :=
  match s.toList with
  | ['-', '-'] => .ok .separator
  | '-' :: _ :: _ =>
    match Flag.ofSpelling? s with
    | some f => .ok (.flag f s none)
    | none =>
      let (front, tail) := splitAssignment s
      match if tail.isNone then none else Flag.ofSpelling? front with
      | some f => .ok (.flag f front tail)
      | none =>
        match candidates s with
        | [w] => .ok w
        | [] => .ok (if isNegativeNumber s.toList || s.toList.contains ' ' then .plain s else .unknown s)
        | many => .error (.ambiguous s (many.filterMap spelling?))
  | _ => .ok (.plain s)
where
  spelling? : Word → Option String
    | .flag _ spelling _ => some spelling
    | _ => none

/-- What the words of a command line are. -/
def classifyAll : List String → Except UsageFault (List Word)
  | [] => .ok []
  | s :: rest => do
    let w ← classify s
    if w = .separator then return w :: rest.map .plain
    else
      let ws ← classifyAll rest
      return w :: ws

/-! ## Options -/

/-- What a command line asks for. -/
structure Options where
  model : Option String := none
  solver : String := "gecode"
  minizinc : String := ""
  timeout : Option Double := none
  emit : Bool := false
  verbose : Bool := false
  /-- Words that have no meaning. -/
  surplus : List String := []

/-- Why a command line is not carried out: help was asked for, or there is a fault. -/
inductive Stop where
  | help
  /-- The word `--` was joined to an option as its argument, and is dropped there like anywhere else. -/
  | argumentLost
  | fault (fault : UsageFault)
  deriving DecidableEq

/-- The options with one that has an argument. -/
def Options.withArgument (f : Flag) (argument : String) (o : Options) : Except Stop Options :=
  match f with
  | .solver => .ok { o with solver := argument }
  | .minizinc => .ok { o with minizinc := argument }
  | .timeout =>
    match Double.read? argument.toList with
    | some x => .ok { o with timeout := some x }
    | none => .error (.fault (.badNumber f argument))
  | _ => .ok o

/-- The options with one that has no argument. -/
def Options.withFlag (f : Flag) (o : Options) : Except Stop Options :=
  match f with
  | .help => .error .help
  | .emit => .ok { o with emit := true }
  | .verbose => .ok { o with verbose := true }
  | _ => .ok o

/-- The short options that share a word: the one before and those that follow it. -/
def shared (f : Flag) : List Char → Except UsageFault (List Flag)
  | [] => .ok [f]
  | c :: rest =>
    match Flag.ofSpelling? (String.ofList ['-', c]) with
    | some g => (shared g rest).map (f :: ·)
    | none => .error (.argumentSurplus f (String.ofList (c :: rest)))

/-- The options with all of a row that have no argument. -/
def Options.withFlags (fs : List Flag) (o : Options) : Except Stop Options := fs.foldlM (fun o f => o.withFlag f) o

/-- The spelling has one hyphen and one letter. -/
def isShort (spelling : String) : Bool := spelling.length == 2

/-- Takes in words one after the other. All short options of a word are known before any of them is heeded. -/
def Options.takeWords : List Word → Options → Except Stop Options
  | [], o => .ok o
  | .flag f _ none :: rest, o =>
    if f.takesArgument then
      match rest with
      | .plain argument :: rest => do takeWords rest (← o.withArgument f argument)
      | _ => .error (.fault (.argumentMissing f))
    else do takeWords rest (← o.withFlag f)
  | .flag f spelling (some text) :: rest, o =>
    if f.takesArgument then
      if text = "--" then .error .argumentLost else do takeWords rest (← o.withArgument f text)
    else if isShort spelling && text ≠ "" then do
      let fs ← (shared f text.toList).mapError .fault
      takeWords rest (← o.withFlags fs)
    else .error (.fault (.argumentSurplus f text))
  | .unknown s :: rest, o => takeWords rest { o with surplus := o.surplus ++ [s] }
  | .plain s :: rest, o =>
    match o.model with
    | some _ => takeWords rest { o with surplus := o.surplus ++ [s] }
    | none =>
      match rest with
      | .separator :: rest => takeWords rest { o with model := some s }
      | rest => takeWords rest { o with model := some s }
  | .separator :: rest, o =>
    match o.model, rest with
    | none, .plain s :: rest => takeWords rest { o with model := some s }
    | _, rest => takeWords rest { o with surplus := o.surplus ++ ["--"] }

/-- The options that a command line gives (`build_parser`). -/
def Options.ofWords (arguments : List String) : Except Stop Options := do
  let words ← (classifyAll arguments).mapError .fault
  let o ← ({} : Options).takeWords words
  if o.model.isNone then throw (.fault .modelMissing)
  if !o.surplus.isEmpty then throw (.fault (.unrecognized o.surplus))
  return o

/-! ## Texts -/

/-- The name that the program is started by. -/
def programName : String := "mznbridge"

/-- How the program is to be used. -/
def usage : String :=
  "usage: mznbridge [-h] [--solver SOLVER] [--minizinc MINIZINC]\n" ++
  "                 [--timeout TIMEOUT] [--emit] [-v]\n" ++
  "                 model\n"

/-- What the options mean. -/
def help : String :=
  usage ++
  "\n" ++
  "Solve a YAML/JSON model with MiniZinc\n" ++
  "\n" ++
  "positional arguments:\n" ++
  "  model                Path to model file (.yaml, .yml or .json)\n" ++
  "\n" ++
  "options:\n" ++
  "  -h, --help           show this help message and exit\n" ++
  "  --solver SOLVER      MiniZinc solver id (default: gecode)\n" ++
  "  --minizinc MINIZINC  Path to the minizinc executable\n" ++
  "  --timeout TIMEOUT    Seconds to wait for the solver\n" ++
  "  --emit               Print the generated MiniZinc code and exit\n" ++
  "  -v, --verbose        Enable debug logging\n"

/-- The complaint about a command line. -/
def UsageFault.text (f : UsageFault) : String := usage ++ programName ++ ": error: " ++ f.message ++ "\n"

end ZincModel.CommandLine
