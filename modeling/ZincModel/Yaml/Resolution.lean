import ZincModel.Calendar.Moment
import ZincModel.Text.DecimalDigit
import ZincModel.Yaml.Tag

/-!
# Plain texts and their kinds

A plain text stands for a number, a truth value, a date and so on if it has the form of one, and else for
itself. A newline at the end of the text is tolerated by every form.

The forms of numbers are those of YAML 1.1: integers in base two, eight, ten, sixteen or sixty, floating-point
numbers with a point, underscores in most places.
-/

namespace ZincModel.Yaml

open Text

/-- The end of a form: nothing, or one newline. -/
def atEnd (s : List Char) : Bool := s.isEmpty || s == ['\n']

/-- The text is one of the words. -/
def isOneOf (words : List String) (s : List Char) : Bool :=
  words.any fun w => w.toList.isPrefixOf s && atEnd (s.drop w.length)

/-- The text without a sign at its start. -/
def dropSign : List Char → List Char
  | '+' :: rest => rest
  | '-' :: rest => rest
  | s => s

/-- A digit or an underscore. -/
def isDigitOr_ (c : Char) : Bool := isDigit c || c == '_'

/-- The text starts with a character of a class, and what follows of the characters of another one is cut
off. -/
def dropRun (first others : Char → Bool) : List Char → Option (List Char)
  | c :: rest => if first c then some (rest.dropWhile others) else none
  | [] => none

/-- The text without the exponent at its start, if there is one: a letter, a sign and digits. -/
def dropExponent : List Char → List Char
  | e :: sign :: d :: rest =>
    if (e == 'e' || e == 'E') && (sign == '-' || sign == '+') && isDigit d then rest.dropWhile isDigit
    else e :: sign :: d :: rest
  | s => s

/-- The text without the places of base sixty at its start, each a colon and one or two digits. -/
def dropSixties : List Char → List Char
  | ':' :: a :: b :: rest =>
    if isDigit a && isDigit b && a ≤ '5' then dropSixties rest
    else if isDigit a then dropSixties (b :: rest)
    else ':' :: a :: b :: rest
  | [':', a] => if isDigit a then [] else [':', a]
  | s => s

/-- Truth values. -/
def isBool (s : List Char) : Bool :=
  isOneOf ["yes", "Yes", "YES", "no", "No", "NO", "true", "True", "TRUE", "false", "False", "FALSE",
    "on", "On", "ON", "off", "Off", "OFF"] s

/-- Null, which can be left out. -/
def isNull (s : List Char) : Bool := isOneOf ["~", "null", "Null", "NULL", ""] s

/-- Digits, a point, and perhaps digits and an exponent. -/
def isPointed (s : List Char) : Bool :=
  match dropRun isDigit isDigitOr_ (dropSign s) with
  | some ('.' :: rest) => atEnd (dropExponent (rest.dropWhile isDigitOr_))
  | _ => false

/-- A point, digits, and perhaps an exponent. -/
def isFraction (s : List Char) : Bool :=
  match s with
  | '.' :: rest =>
    match dropRun isDigit isDigitOr_ rest with
    | some rest => atEnd (dropExponent rest)
    | none => false
  | _ => false

/-- Places of base sixty, the last one with a point. -/
def isPointedSixties (s : List Char) : Bool :=
  match dropRun isDigit isDigitOr_ (dropSign s) with
  | some (':' :: rest) =>
    match dropSixties (':' :: rest) with
    | '.' :: rest => atEnd (rest.dropWhile isDigitOr_)
    | _ => false
  | _ => false

/-- Floating-point numbers. -/
def isFloat (s : List Char) : Bool :=
  isPointed s || isFraction s || isPointedSixties s || isOneOf [".inf", ".Inf", ".INF"] (dropSign s) ||
    isOneOf [".nan", ".NaN", ".NAN"] s

/-- The text consists of characters of a class, at least one of them. -/
def isRunOf (p : Char → Bool) (s : List Char) : Bool :=
  match dropRun p p s with
  | some rest => atEnd rest
  | none => false

/-- A decimal integer without leading zeros, perhaps with places of base sixty behind. -/
def isDecimal (s : List Char) : Bool :=
  match s with
  | '0' :: rest => atEnd rest
  | _ =>
    match dropRun isDigit isDigitOr_ s with
    | some rest => atEnd (dropSixties rest)
    | none => false

/-- Integers. -/
def isInt (s : List Char) : Bool :=
  let s := dropSign s
  isDecimal s ||
    match s with
    | '0' :: 'b' :: rest => isRunOf (fun c => c == '0' || c == '1' || c == '_') rest
    | '0' :: 'x' :: rest =>
      isRunOf (fun c => isDigit c || ('a' ≤ c && c ≤ 'f') || ('A' ≤ c && c ≤ 'F') || c == '_') rest
    | '0' :: rest => isRunOf (fun c => ('0' ≤ c && c ≤ '7') || c == '_') rest
    | _ => false

/-! ## Dates and times -/

/-- The time of day in a timestamp; the digits of its fraction and the offset of its clock as written. -/
structure ClockParts where
  hour : Nat
  minute : Nat
  second : Nat
  fraction : List Char
  offset : Option Int
  deriving DecidableEq

/-- A timestamp as written. -/
structure TimestampParts where
  year : Nat
  month : Nat
  day : Nat
  /-- Month and day have two digits each. -/
  isPadded : Bool
  clock : Option ClockParts
  deriving DecidableEq

/-- The number of a row of digits. -/
def digitsValue (ds : List Char) : Nat := Nat.ofDigitChars 10 ds 0

/-- Two digits at the start of a text. -/
def takeTwo : List Char → Option (Nat × List Char)
  | a :: b :: rest => if isDigit a && isDigit b then some (digitsValue [a, b], rest) else none
  | _ => none

/-- One or two digits at the start of a text. -/
def takeOneOrTwo (s : List Char) : Option (Nat × List Char) :=
  match takeTwo s with
  | some r => some r
  | none =>
    match s with
    | a :: rest => if isDigit a then some (digitsValue [a], rest) else none
    | [] => none

/-- The text behind a character that must come first. -/
def expect (c : Char) : List Char → Option (List Char)
  | x :: rest => if x = c then some rest else none
  | [] => none

/-- The offset of a clock at the start of a text, in seconds: hours, and perhaps a colon and minutes. -/
def takeOffset (negative : Bool) (s : List Char) : Option (Int × List Char) := do
  let (hours, s) ← takeOneOrTwo s
  let (minutes, s) :=
    match s with
    | ':' :: rest => (takeTwo rest).getD (0, s)
    | _ => (0, s)
  let seconds : Nat := hours * 3600 + minutes * 60
  return (if negative then -(seconds : Int) else seconds, s)

/-- What ends a timestamp with a time of day: perhaps blanks and an offset. -/
def readZone (s : List Char) : Option (Option Int) :=
  if atEnd s then some none
  else
    match s.dropWhile fun c => c == ' ' || c == '\t' with
    | 'Z' :: rest => if atEnd rest then some (some 0) else none
    | '+' :: rest => (takeOffset false rest).bind fun r => if atEnd r.2 then some (some r.1) else none
    | '-' :: rest => (takeOffset true rest).bind fun r => if atEnd r.2 then some (some r.1) else none
    | _ => none

/-- The time of day that is the rest of a timestamp. -/
def readClock (s : List Char) : Option ClockParts := do
  let (hour, s) ← takeOneOrTwo s
  let (minute, s) ← takeTwo (← expect ':' s)
  let (second, s) ← takeTwo (← expect ':' s)
  let (fraction, s) :=
    match s with
    | '.' :: rest => (rest.takeWhile isDigit, rest.dropWhile isDigit)
    | _ => ([], s)
  let offset ← readZone s
  return ⟨hour, minute, second, fraction, offset⟩

/-- The text behind what separates a date from the time of day: a letter, or blanks. -/
def dropSeparator : List Char → Option (List Char)
  | 'T' :: rest => some rest
  | 't' :: rest => some rest
  | s => dropRun (fun c => c == ' ' || c == '\t') (fun c => c == ' ' || c == '\t') s

/-- The parts of a timestamp: a date, and perhaps a time of day. -/
def readTimestamp (s : List Char) : Option TimestampParts := do
  let (century, s) ← takeTwo s
  let (year, s) ← takeTwo s
  let s ← expect '-' s
  let (month, afterMonth) ← takeOneOrTwo s
  let s' ← expect '-' afterMonth
  let (day, afterDay) ← takeOneOrTwo s'
  let isPadded := s.length = afterMonth.length + 2 && s'.length = afterDay.length + 2
  let parts clock := ⟨century * 100 + year, month, day, isPadded, clock⟩
  if atEnd afterDay then return parts none
  else
    let clock ← readClock (← dropSeparator afterDay)
    return parts (some clock)

/-- Timestamps; a date by itself has two digits for month and day. -/
def isTimestamp (s : List Char) : Bool :=
  match readTimestamp s with
  | some parts => parts.clock.isSome || parts.isPadded
  | none => false

/-- The kind of value that a plain text stands for. -/
def tagOfPlain (s : List Char) : Tag :=
  if isBool s then .bool
  else if isFloat s then .float
  else if isInt s then .int
  else if isOneOf ["<<"] s then .merge
  else if isNull s && s ≠ ['\n'] then .null
  else if isTimestamp s then .timestamp
  else if isOneOf ["="] s then .value
  else if isOneOf ["!", "&", "*"] s then .unknown
  else .str

end ZincModel.Yaml
