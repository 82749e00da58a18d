import ZincModel.Text.Line

/-!
# Records of a log

What the program notes while it works. A record has a level, which says how urgent it is, the name of the part
of the program it comes from, and a message. Names are in a hierarchy: `a.b` is a part of `a`.
-/

namespace ZincModel.Log

/-- The levels that have a name of their own. -/
inductive Level where
  | notset
  | debug
  | info
  | warning
  | error
  | critical
  deriving DecidableEq, Repr

namespace Level

def number : Level → Int
  | notset => 0
  | debug => 10
  | info => 20
  | warning => 30
  | error => 40
  | critical => 50

def name : Level → String
  | notset => "NOTSET"
  | debug => "DEBUG"
  | info => "INFO"
  | warning => "WARNING"
  | error => "ERROR"
  | critical => "CRITICAL"

/-- All levels that have a name. -/
def all : List Level := [notset, debug, info, warning, error, critical]

/-- The level with a name; two of them have a second one. -/
def ofName? (name : String) : Option Level :=
  if name = "FATAL" then some critical
  else if name = "WARN" then some warning
  else all.find? (·.name == name)

/-- The name of the level with a number. -/
def nameOf (number : Int) : String :=
  match all.find? (·.number == number) with
  | some level => level.name
  | none => "Level " ++ toString number

end Level

/-- What is noted. -/
structure Record where
  level : Level
  logger : String
  message : List Char
  deriving DecidableEq

/-- The line that shows a record; the time is written as `HH:MM:SS`, and the name of the level takes at least
seven characters. -/
def line (level : Int) (logger : String) (message : List Char) : List Char :=
  let name := (Level.nameOf level).toList
  "HH:MM:SS ".toList ++ name ++ List.replicate (7 - name.length) ' ' ++ ' ' :: logger.toList ++
    ": ".toList ++ message ++ ['\n']

/-- The line that shows nothing of a record but its message. -/
def bareLine (message : List Char) : List Char := message ++ ['\n']

/-- The line that shows a record. -/
def Record.line (r : Record) : List Char := Log.line r.level.number r.logger r.message

/-- The record without time and without widths. -/
def Record.text (r : Record) : List Char :=
  r.level.name.toList ++ ' ' :: r.logger.toList ++ ": ".toList ++ r.message

/-- The lines that records take one after the other. A message of several lines takes as many. -/
def transcript (records : List Record) : List (List Char) :=
  Text.lines (records.flatMap fun r => r.text ++ ['\n'])

end ZincModel.Log
