import ZincModel.Solver.Process
import ZincModel.Text.Line

/-!
# Starting a process

What the library that starts processes (`subprocess.run`) makes of what happens. It asks the operating system for
pipes, and then for the process, where a null character in a text stops it. It adds the time limit to the clock, and
before it waits it works out what is left of the time, as a number of milliseconds for the system call that waits. Once
the process has ended it decodes what came through the pipes, whatever the exit status is.
-/

namespace ZincModel.Solver

/-- How a process ends by itself: with a status, with what it has written to its two pipes, and with what it leaves for
its output. -/
structure Exit where
  returncode : Int
  stdout : List UInt8
  stderr : List UInt8
  output : Option Entry

/-- What happens when a process is to be started. -/
inductive Happening where
  /-- The operating system has no pipes for it. -/
  | unprepared (number : Nat) (reason : String)
  /-- The operating system does not start it, and may name a path. -/
  | unstarted (number : Nat) (reason : String) (path : Option String)
  /-- It is started. The clock is read when the wait begins and when it is first looked at what is left of the time;
  the process ends by itself before its time is over, or it does not. -/
  | started (begun now : Double) (exit : Option Exit)

/-- What a number of the operating system for a failure tells. A file that is no program has one of its own. -/
def Outcome.ofNumber (number : Nat) (reason : String) (path : Option String) : Outcome :=
  if number = 2 then .notFound
  else if number = 1 ∨ number = 13 then .notPermitted
  else if number = 8 then .notExecutable
  else .unstarted number reason path

/-- What comes of a process that has ended. -/
def Exit.outcome (e : Exit) : Outcome :=
  match Text.Utf8.decode e.stdout, Text.Utf8.decode e.stderr with
  | .error cause, _ => .refused (.undecodable cause)
  | .ok _, .error cause => .refused (.undecodable cause)
  | .ok _, .ok stderr => .finished e.returncode (String.ofList (Text.unifyNewlines stderr)) e.output

/-! ## Time -/

/-- The number that is added to the clock for a time limit. -/
def limitOf (timeout : Value) : Except Refusal Double :=
  match timeout with
  | .float _ x => .ok x
  | .int n => ofInt n
  | .bool b => ofInt (if b then 1 else 0)
  | v => .error (.notNumber v.fullKind)
where
  ofInt (n : Int) : Except Refusal Double :=
    match Double.ofInt? n with
    | some x => .ok x
    | none => .error .tooLarge

/-- What is left of the time. -/
def timeLeft (begun limit now : Double) : Double := (begun.add limit).add now.neg

/-- A time in milliseconds. -/
def milliseconds (x : Double) : Double := x.mul (.ofDecimal false 1000 0)

/-- The greatest number of milliseconds that the clock has a number for. -/
def clockLimit : Int := 9223372036854

/-- The greatest number of milliseconds that the system call waits for. -/
def pollLimit : Int := 2147483647

/-- By how much a time in milliseconds is too long, if it is. -/
def overlong? (ms : Double) : Option Overlong :=
  if ms.compareInt? pollLimit ≠ some .gt then none
  else if ms = .infinite false then some .endless
  else if ms.compareInt? clockLimit = some .gt then some .beyondClock
  else some .beyondPoll

/-- Some of the time is left, so that the process is waited for. -/
def waits (left : Double) : Except Refusal Bool :=
  if left.compareInt? 0 = some .lt then .ok false
  else if left = .nan then .error .notANumber
  else
    match overlong? (milliseconds left) with
    | some cause => .error (.overlong cause)
    | none => .ok true

/-- What comes of a process that has been started, if it is not waited for without an end. -/
def afterStart (timeout : Value) (begun now : Double) (exit : Option Exit) : Option Outcome :=
  match timeout with
  | .null => exit.map Exit.outcome
  | timeout =>
    match limitOf timeout >>= fun limit => waits (timeLeft begun limit now) with
    | .error cause => some (.refused cause)
    | .ok false => some .timedOut
    | .ok true => some ((exit.map Exit.outcome).getD .timedOut)

/-! ## Processes -/

/-- The texts that the operating system is given. -/
def Call.texts (call : Call) : List String := call.directory :: call.arguments

/-- One of the texts has a null character. -/
def Call.hasNull (call : Call) : Bool := call.texts.any (·.toList.contains '\x00')

/-- What comes of starting a process, if it is not waited for without an end. -/
def Call.outcome (call : Call) (h : Happening) : Option Outcome :=
  match h with
  | .unprepared number reason => some (.ofNumber number reason none)
  | .unstarted number reason path =>
    if call.hasNull then some (.refused .nullByte) else some (.ofNumber number reason path)
  | .started begun now exit =>
    if call.hasNull then some (.refused .nullByte) else afterStart call.timeout begun now exit

end ZincModel.Solver
