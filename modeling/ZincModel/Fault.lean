import ZincModel.Text.Blank
import ZincModel.Text.Quoted
import ZincModel.Text.Utf8
import ZincModel.Number.Integer
import ZincModel.Calendar.Date

/-!
# Faults

Everything that can go wrong, by cause. A cause holds what its message needs; the wording stands in the
`message` functions and nowhere else. Values that a message shows are held as the text that shows them, since
showing a value can itself fail: an integer with too many digits has no text. What the YAML library says of a
text that it refuses is its own matter, so a message that tells it on takes it from a parameter, `explain`.
-/

namespace ZincModel

/-- A text between quotes, as messages show it. -/
def shown (s : String) : String := String.ofList (Text.quoted s.toList)

/-- Data whose form does not admit what was done with it. Kinds of values are given by name. -/
inductive ShapeFault where
  | notSubscriptable (kind : String)
  | badIndex (kind : String)
  | textIndex
  | notIterable (kind : String)
  | notUnpackable (kind : String)
  | unhashable (kind : String)
  | unordered (left right : String)
  | mixedDates
  | mixedOffsets
  | notSerializable (kind : String)
  | badKey (kind : String)
  | notText (position : Nat) (kind : String)
  | notNumber (kind : String)
  | notPath (kind : String)
  | badLevel (shown : String)
  | notSearchable (kind : String)
  | notAddable (kind : String)
  deriving DecidableEq, Repr

def ShapeFault.message : ShapeFault → String
  | notSubscriptable kind => "'" ++ kind ++ "' object is not subscriptable"
  | badIndex kind => kind ++ " indices must be integers or slices, not str"
  | textIndex => "string indices must be integers, not 'str'"
  | notIterable kind => "'" ++ kind ++ "' object is not iterable"
  | notUnpackable kind => "cannot unpack non-iterable " ++ kind ++ " object"
  | unhashable kind => "unhashable type: '" ++ kind ++ "'"
  | unordered left right =>
    "'<' not supported between instances of '" ++ left ++ "' and '" ++ right ++ "'"
  | mixedDates => "can't compare datetime.datetime to datetime.date"
  | mixedOffsets => "can't compare offset-naive and offset-aware datetimes"
  | notSerializable kind => "Object of type " ++ kind ++ " is not JSON serializable"
  | badKey kind => "keys must be str, int, float, bool or None, not " ++ kind
  | notText position kind =>
    "sequence item " ++ toString position ++ ": expected str instance, " ++ kind ++ " found"
  | notNumber kind => "float() argument must be a string or a real number, not '" ++ kind ++ "'"
  | notPath kind => "expected str, bytes or os.PathLike object, not " ++ kind
  | badLevel shown => "Level not an integer or a valid string: " ++ shown
  | notSearchable kind => "expected string or bytes-like object, got '" ++ kind ++ "'"
  | notAddable kind => "unsupported operand type(s) for +: 'float' and '" ++ kind ++ "'"

/-- What is wrong with the content of a value of the right form. -/
inductive ContentFault where
  | integerUnwritable
  | integerUnreadable (digits : Nat)
  | badInteger (base : Nat) (text : String)
  | badNumber (shown : String)
  | badCharacter
  | calendar (cause : CalendarFault)
  | tooManyParts
  | tooFewParts (found : Nat)
  | noArgument
  | badLevelName (name : String)
  | nullByte
  | circular
  | wholeOfNan
  deriving DecidableEq, Repr

/-- The parts of an offset that are not zero, by name. -/
def offsetParts (seconds : Int) : String :=
  let days := Int.fdiv seconds 86400
  let rest := Int.fmod seconds 86400
  if days = 0 then
    if rest = 0 then "0" else "seconds=" ++ toString rest
  else if rest = 0 then "days=" ++ toString days
  else "days=" ++ toString days ++ ", seconds=" ++ toString rest

/-- An offset from universal time, as messages show it. -/
def shownOffset (seconds : Int) : String := "datetime.timedelta(" ++ offsetParts seconds ++ ")"

def CalendarFault.message : CalendarFault → String
  | year y => "year " ++ toString y ++ " is out of range"
  | month => "month must be in 1..12"
  | day => "day is out of range for month"
  | hour => "hour must be in 0..23"
  | minute => "minute must be in 0..59"
  | second => "second must be in 0..59"
  | offset seconds =>
    "offset must be a timedelta strictly between -timedelta(hours=24) and timedelta(hours=24), not " ++
      shownOffset seconds ++ "."

/-- The complaint about the limit on digits, with what was found in between. -/
def digitLimitMessage (found : String) : String :=
  "Exceeds the limit (" ++ toString Integer.digitLimit ++ " digits) for integer string conversion" ++ found ++
    "; use sys.set_int_max_str_digits() to increase the limit"

def ContentFault.message : ContentFault → String
  | integerUnwritable => digitLimitMessage ""
  | integerUnreadable digits => digitLimitMessage (": value has " ++ toString digits ++ " digits")
  | badInteger base text =>
    "invalid literal for int() with base " ++ toString base ++ ": " ++ String.ofList ((shown text).toList.take 200)
  | badNumber shown => "could not convert string to float: " ++ shown
  | badCharacter => "chr() arg not in range(0x110000)"
  | calendar cause => cause.message
  | tooManyParts => "too many values to unpack (expected 2)"
  | tooFewParts found => "not enough values to unpack (expected 2, got " ++ toString found ++ ")"
  | noArgument => "not enough values to unpack (expected 1, got 0)"
  | badLevelName name => "Unknown level: " ++ shown name
  | nullByte => "embedded null byte"
  | circular => "Circular reference detected"
  | wholeOfNan => "cannot convert float NaN to integer"

/-- What is wrong with a variable, a constraint or a model, or with the data it is built from (`ModelError`). -/
inductive ModelFault where
  | unknownChoice (what shown : String) (allowed : List String)
  | badName (shown : String)
  | parameterWithoutValue (name : String)
  | decisionWithValue (name : String)
  | badDomain (name shown : String)
  | incomparableBounds (name lo hi : String)
  | emptyDomain (name lo hi : String)
  | operandCount (operator : String) (count : Nat)
  | notVariable (kind : String)
  | notDecision (name : String)
  | notParameter (name : String)
  | foreignOperand (name : String)
  | surplusObjectiveVariable
  | missingObjectiveVariable (objective : String)
  | foreignObjectiveVariable (name : String)
  | notMapping (kind : String)
  | unknownOperand (shown : String)
  | unknownObjectiveVariable (shown : String)
  | malformed (cause : String)
  | invalidJson (cause : String)
  /-- The YAML library refuses the text. -/
  | invalidYaml (text : List Char)
  deriving DecidableEq, Repr

def ModelFault.message (explain : List Char → String) : ModelFault → String
  | unknownChoice what shown allowed =>
    "Unknown " ++ what ++ " " ++ shown ++ " (expected one of: " ++ ", ".intercalate allowed ++ ")"
  | badName shown => "Variable name must be a non-empty string, got " ++ shown
  | parameterWithoutValue name => "Parameter " ++ name ++ " requires a value"
  | decisionWithValue name => "Decision variable " ++ name ++ " cannot be given a value before solving"
  | badDomain name shown => "Decision variable " ++ name ++ " requires a two-element domain, got " ++ shown
  | incomparableBounds name lo hi =>
    "Decision variable " ++ name ++ " has incomparable bounds " ++ lo ++ ".." ++ hi
  | emptyDomain name lo hi => "Decision variable " ++ name ++ " has an empty domain " ++ lo ++ ".." ++ hi
  | operandCount operator count =>
    "Constraint " ++ operator ++ " takes exactly two variables, got " ++ toString count
  | notVariable kind => "Constraint operands must be Variable objects, got " ++ kind
  | notDecision name => name ++ " is listed as a decision variable but is a parameter"
  | notParameter name => name ++ " is listed as a parameter but is a decision"
  | foreignOperand name => "Constraint operand " ++ name ++ " is not part of the model"
  | surplusObjectiveVariable => "A satisfy objective does not take an objective variable"
  | missingObjectiveVariable objective => "Objective " ++ objective ++ " requires an objective variable"
  | foreignObjectiveVariable name => "Objective variable " ++ name ++ " is not part of the model"
  | notMapping kind => "Model data must be a mapping, got " ++ kind
  | unknownOperand shown => "Constraint references unknown variable " ++ shown
  | unknownObjectiveVariable shown => "Objective references unknown variable " ++ shown
  | malformed cause => "Malformed model data: " ++ cause
  | invalidJson cause => "Invalid JSON model: " ++ cause
  | invalidYaml text => "Invalid YAML model: " ++ explain text

/-- Why the operating system refuses an operation on a file. -/
inductive FileFault where
  | notFound (path : String)
  | notDirectory (path : String)
  | isDirectory (path : String)
  | nameTooLong (path : String)
  | notExecutable (path : String)
  /-- For one of the other reasons that the system has a number for, with the path that it is about, if any. -/
  | system (number : Nat) (reason : String) (path : Option String)
  /-- A file cannot be written, with all that is said about it. -/
  | unwritable (complaint : String)
  deriving DecidableEq, Repr

def FileFault.message : FileFault → String
  | notFound path => "[Errno 2] No such file or directory: " ++ shown path
  | notDirectory path => "[Errno 20] Not a directory: " ++ shown path
  | isDirectory path => "[Errno 21] Is a directory: " ++ shown path
  | nameTooLong path => "[Errno 36] File name too long: " ++ shown path
  | notExecutable path => "[Errno 8] Exec format error: " ++ shown path
  | system number reason path =>
    "[Errno " ++ toString number ++ "] " ++ reason ++ (path.map fun p => ": " ++ shown p).getD ""
  | unwritable complaint => complaint

/-- Why the configuration of the solver does not serve (`ConfigurationError`, `SolverNotFoundError`). -/
inductive ConfigurationFault where
  | executableUnset
  | notMapping (path : String)
  | fileMissing (path : String)
  deriving DecidableEq, Repr

def ConfigurationFault.message : ConfigurationFault → String
  | executableUnset =>
    "Path to MiniZinc is not set. Pass SolverConfig(executable=...) or set MINIZINC_PATH."
  | notMapping path => "Config file " ++ path ++ " must contain a mapping"
  | fileMissing path => "MZNBRIDGE_CONFIG points to missing file " ++ path

/-- How a solver process failed (`SolverProcessError`). -/
inductive ProcessFault where
  | exited (solver : String) (returncode : Int) (stderr : String)
  | timedOut (solver timeout : String)
  deriving DecidableEq, Repr

def ProcessFault.message : ProcessFault → String
  | exited solver returncode stderr =>
    "Solver " ++ solver ++ " exited with status " ++ toString returncode ++ ": " ++
      String.ofList (Text.strip stderr.toList)
  | timedOut solver timeout => "Solver " ++ solver ++ " did not finish within " ++ timeout ++ " seconds"

/-- The exit status of the failed process, if it came to one. -/
def ProcessFault.returncode : ProcessFault → Option Int
  | exited _ returncode _ => some returncode
  | timedOut .. => none

/-- What the failed process wrote to its standard error. -/
def ProcessFault.stderr : ProcessFault → String
  | exited _ _ stderr => stderr
  | timedOut .. => ""

/-- By how much a time to wait is too long: it has no end, the clock has no number for it, or the system call that
waits takes no such number. -/
inductive Overlong where
  | endless
  | beyondClock
  | beyondPoll
  deriving DecidableEq, Repr

def Overlong.message : Overlong → String
  | endless => "cannot convert float infinity to integer"
  | beyondClock => "timestamp too large to convert to C _PyTime_t"
  | beyondPoll => "timeout is too large"

/-- Anything that can go wrong. -/
inductive Fault where
  | model (cause : ModelFault)
  | duplicateName (name : String)
  | configuration (cause : ConfigurationFault)
  | solverMissing (executable : String)
  | solverNotRunnable (executable : String)
  | modelUnwritten (path : String) (cause : FileFault)
  | process (cause : ProcessFault)
  | inconclusive (solver firstLine : String)
  | yaml
  | missingKey (key : String)
  | shape (cause : ShapeFault)
  | missingField (kind field : String)
  | content (cause : ContentFault)
  | undecodable (cause : Text.Utf8.Malformed)
  | emptyText
  | noMatch
  | tooLarge
  | characterTooLarge
  | overlong (cause : Overlong)
  | file (cause : FileFault)
  deriving DecidableEq

/-- The complaint about a field that values of a kind do not have. -/
def missingFieldMessage (kind field : String) : String := "'" ++ kind ++ "' object has no attribute '" ++ field ++ "'"

/-- What is said about a fault. For a text that the YAML library refuses outside of a model this is for the library
alone to say. -/
def Fault.message (explain : List Char → String) : Fault → String
  | model cause => cause.message explain
  | duplicateName name => "Variable name " ++ shown name ++ " is used more than once"
  | configuration cause => cause.message
  | solverMissing executable => "MiniZinc executable not found: " ++ executable
  | solverNotRunnable executable => "MiniZinc executable is not runnable: " ++ executable
  | modelUnwritten path cause => "Cannot write MiniZinc code to " ++ path ++ ": " ++ cause.message
  | process cause => cause.message
  | inconclusive solver _ => "Solver " ++ solver ++ " produced neither a solution nor UNSAT"
  | yaml => ""
  | missingKey key => shown key
  | shape cause => cause.message
  | missingField kind field => missingFieldMessage kind field
  | content cause => cause.message
  | undecodable cause => cause.message
  | emptyText => "string index out of range"
  | noMatch => "'NoneType' object has no attribute 'groupdict'"
  | tooLarge => "int too large to convert to float"
  | characterTooLarge => "Python int too large to convert to C int"
  | overlong cause => cause.message
  | file cause => cause.message

end ZincModel
