import ZincModel.Fault
import ZincModel.Number.Shortest
import ZincModel.Text.Line
import ZincModel.Value.Basic

/-!
# Values as text

`display` shows a value so that its kind can be seen: texts in quotes, dates by their parts. `text` is the
plain text of a value, which differs for texts and dates that stand by themselves. Both fail on an integer
with more digits than may be written.
-/

namespace ZincModel

open Text

/-- The text of an integer, if it may be written. -/
def Integer.text (n : Int) : Except Fault (List Char) :=
  if fits n then .ok (numeral n) else .error (.content .integerUnwritable)

/-- Numbers separated by commas. -/
def shownParts (parts : List Nat) : List Char := join [',', ' '] (parts.map (Nat.toDigits 10))

/-- A date by its parts. -/
def Date.display (d : Date) : List Char :=
  "datetime.date(".toList ++ shownParts [d.year, d.month, d.day] ++ [')']

/-- An offset from universal time, as part of a moment. -/
def Moment.displayOffset : Option Int → List Char
  | none => []
  | some 0 => ", tzinfo=datetime.timezone.utc".toList
  | some seconds => ", tzinfo=datetime.timezone(".toList ++ (shownOffset seconds).toList ++ [')']

/-- A moment by its parts, without seconds and microseconds where they are zero. -/
def Moment.display (m : Moment) : List Char :=
  let start := [m.date.year, m.date.month, m.date.day, m.hour, m.minute]
  let parts :=
    if m.microsecond ≠ 0 then start ++ [m.second, m.microsecond]
    else if m.second ≠ 0 then start ++ [m.second]
    else start
  "datetime.datetime(".toList ++ shownParts parts ++ displayOffset m.offset ++ [')']

namespace Value

/-- The path with the number of a container that is entered. -/
def enter (label : Option Label) (path : List Nat) : List Nat :=
  match label with
  | some l => l.number :: path
  | none => path

/-- The container stands on the path already. -/
def isEntered (label : Option Label) (path : List Nat) : Bool := label.any fun l => path.contains l.number

mutual

/-- The value as messages show it, inside of the containers whose numbers are on the path. A container inside
itself is cut short. -/
def displayIn (path : List Nat) : Value → Except Fault (List Char)
  | null => .ok "None".toList
  | bool b => .ok (if b then "True".toList else "False".toList)
  | int n => Integer.text n
  | float _ x => .ok x.text
  | str s => .ok (quoted s.toList)
  | bytes bs => .ok (quotedBytes bs)
  | date _ d => .ok d.display
  | moment _ m => .ok m.display
  | list l items =>
    if isEntered l path then .ok "[...]".toList
    else do
      let parts ← displayAll (enter l path) items
      return '[' :: join [',', ' '] parts ++ [']']
  | tuple l items =>
    if isEntered l path then .ok "(...)".toList
    else do
      let parts ← displayAll (enter l path) items
      return '(' :: join [',', ' '] parts ++ (if parts.length = 1 then [',', ')'] else [')'])
  | set _ items => do
    let parts ← displayAll path items
    return if parts.isEmpty then "set()".toList else '{' :: join [',', ' '] parts ++ ['}']
  | dict l entries =>
    if isEntered l path then .ok "\x7b...\x7d".toList
    else do
      let parts ← displayEntries (enter l path) entries
      return '{' :: join [',', ' '] parts ++ ['}']
  | loop _ isDict => .ok (if isDict then "\x7b...\x7d".toList else "[...]".toList)
termination_by structural x => x

def displayAll (path : List Nat) : List Value → Except Fault (List (List Char))
  | [] => .ok []
  | v :: rest => do
    let part ← displayIn path v
    let parts ← displayAll path rest
    return part :: parts
termination_by structural x => x

def displayEntries (path : List Nat) : List (Value × Value) → Except Fault (List (List Char))
  | [] => .ok []
  | (k, v) :: rest => do
    let key ← displayIn path k
    let part ← displayIn path v
    let parts ← displayEntries path rest
    return (key ++ ':' :: ' ' :: part) :: parts
termination_by structural x => x

end

/-- The value as messages show it. -/
def display (v : Value) : Except Fault (List Char) := v.displayIn []

/-- The plain text of a value. -/
def text : Value → Except Fault (List Char)
  | str s => .ok s.toList
  | date _ d => .ok d.iso
  | moment _ m => .ok (m.iso ' ')
  | v => v.display

/-- `display` as a string. -/
def displayed (v : Value) : Except Fault String := v.display.map String.ofList

/-- `text` as a string. -/
def textString (v : Value) : Except Fault String := v.text.map String.ofList

end Value

end ZincModel
