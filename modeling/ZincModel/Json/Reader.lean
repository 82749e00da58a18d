import ZincModel.Fault
import ZincModel.Json.Fault
import ZincModel.Number.Reading
import ZincModel.Text.Hexadecimal
import ZincModel.Value.Order

/-!
# Reading JSON

The value that a JSON text stands for. Numbers with a fraction or exponent are double precision, all others
integers, which have no more digits than may be read; `NaN`, `Infinity` and `-Infinity` are numbers too. Of
two entries with the same name the later value counts, at the earlier place. Texts hold no unescaped control
characters. An escape that denotes half of a character and is not followed by the other half is read as
U+FFFD.

The readers take the text that is left and return what they read with the text that is left then; a complaint
is located by what is left at its place.
-/

namespace ZincModel.Json

open Text

/-- Why reading stops: a complaint about the place with `left` characters to go, or too long an integer. -/
inductive Stop where
  | complain (complaint : Complaint) (left : Nat)
  | tooLong (digits : Nat)
  deriving DecidableEq

/-- What was read, and the text that is left. -/
abbrev Reading (α : Type) := Except Stop (α × List Char)

/-- The blanks of JSON. -/
def isBlank (c : Char) : Bool := c == ' ' || c == '\t' || c == '\n' || c == '\r'

/-- The text without the blanks at its start. -/
def skip (s : List Char) : List Char := s.dropWhile isBlank

/-- The character that a letter behind a backslash stands for. -/
def unescape? : Char → Option Char
  | '"' => some '"'
  | '\\' => some '\\'
  | '/' => some '/'
  | 'b' => some '\x08'
  | 'f' => some '\x0c'
  | 'n' => some '\n'
  | 'r' => some '\r'
  | 't' => some '\t'
  | _ => none

/-- The number is the first half of a character beyond U+FFFF. -/
def isHighHalf (n : Nat) : Bool := 0xD800 ≤ n && n < 0xDC00

/-- The number is the second half of a character beyond U+FFFF. -/
def isLowHalf (n : Nat) : Bool := 0xDC00 ≤ n && n < 0xE000

/-- The character made of two halves. -/
def charOfHalves (high low : Nat) : Char := Char.ofNat (0x10000 + (high - 0xD800) * 0x400 + (low - 0xDC00))

/-- The characters of a row of code points and halves of characters. A half that stands alone is U+FFFD. -/
def joinHalves : List Nat → List Char
  | [] => []
  | [n] => [if isHighHalf n || isLowHalf n then '\uFFFD' else Char.ofNat n]
  | n :: m :: rest =>
    if isHighHalf n && isLowHalf m then charOfHalves n m :: joinHalves rest
    else if isHighHalf n || isLowHalf n then '\uFFFD' :: joinHalves (m :: rest)
    else Char.ofNat n :: joinHalves (m :: rest)

/-- The rest of a text after its opening quote as code points and halves of characters. It fails without a stop if
the text has no closing quote. -/
def readUnits : List Char → Except (Option Stop) (List Nat × List Char)
  | [] => .error none
  | '"' :: rest => .ok ([], rest)
  | '\\' :: rest =>
    match rest with
    | [] => .error none
    | 'u' :: a :: b :: c :: d :: rest' =>
      if rest'.isEmpty then .error (some (.complain .badUnicodeEscape (rest'.length + 5)))
      else
        match hexNumber? [a, b, c, d] with
        | none => .error (some (.complain .badUnicodeEscape (rest'.length + 5)))
        | some n => (readUnits rest').map fun r => (n :: r.1, r.2)
    | 'u' :: rest' => .error (some (.complain .badUnicodeEscape (rest'.length + 1)))
    | l :: rest' =>
      match unescape? l with
      | some c => (readUnits rest').map fun r => (c.toNat :: r.1, r.2)
      | none => .error (some (.complain .badEscape (rest'.length + 2)))
  | c :: rest =>
    if c.toNat < 0x20 then .error (some (.complain .controlCharacter (rest.length + 1)))
    else (readUnits rest).map fun r => (c.toNat :: r.1, r.2)
termination_by structural x => x

/-- The rest of a text after its opening quote. -/
def readText (s : List Char) : Reading (List Char) :=
  match readUnits s with
  | .ok (units, rest) => .ok (joinHalves units, rest)
  | .error stop => .error (stop.getD (.complain .unterminated (s.length + 1)))

/-- The fraction at the start of a text: a point and at least one digit. -/
def takeFraction (s : List Char) : Option (List Char × List Char) :=
  match s with
  | '.' :: rest =>
    match Double.takeDigits rest with
    | ([], _) => none
    | (ds, after) => some (ds, after)
  | _ => none

/-- The number that starts with the digits `whole`, behind a minus sign if `negative`. -/
def numberFrom (negative : Bool) (whole rest : List Char) : Reading Value :=
  let fraction? := takeFraction rest
  let (fraction, afterFraction) := fraction?.getD ([], rest)
  let exponent? := Double.takeExponent? afterFraction
  let (e, after) := exponent?.getD (0, afterFraction)
  if fraction?.isNone && exponent?.isNone then
    if Integer.digitLimit < whole.length then .error (.tooLong whole.length)
    else
      let n : Nat := Nat.ofDigitChars 10 whole 0
      .ok (.int (if negative then -(n : Int) else n), rest)
  else
    let n := Nat.ofDigitChars 10 (whole ++ fraction) 0
    .ok (.ofDouble (Double.ofDecimal negative n (e - fraction.length)), after)

/-- The number at the start of a text without sign; `none` if there is no digit. A zero at the start is all
of the whole part. -/
def readUnsigned? (negative : Bool) (s : List Char) : Option (Reading Value) :=
  match s with
  | '0' :: rest => some (numberFrom negative ['0'] rest)
  | _ =>
    match Double.takeDigits s with
    | ([], _) => none
    | (whole, rest) => some (numberFrom negative whole rest)

/-- The number of what `NaN` stands for, which is one value in all texts. -/
def nanNumber : Nat := 0

/-- The value at the start of a text if it is neither a text nor a container. -/
def readScalar (s : List Char) : Reading Value :=
  let reading? : Option (Reading Value) :=
    match s with
    | 'n' :: 'u' :: 'l' :: 'l' :: rest => some (.ok (.null, rest))
    | 't' :: 'r' :: 'u' :: 'e' :: rest => some (.ok (.bool true, rest))
    | 'f' :: 'a' :: 'l' :: 's' :: 'e' :: rest => some (.ok (.bool false, rest))
    | 'N' :: 'a' :: 'N' :: rest => some (.ok (.float (some nanNumber) .nan, rest))
    | 'I' :: 'n' :: 'f' :: 'i' :: 'n' :: 'i' :: 't' :: 'y' :: rest =>
      some (.ok (.ofDouble (.infinite false), rest))
    | '-' :: 'I' :: 'n' :: 'f' :: 'i' :: 'n' :: 'i' :: 't' :: 'y' :: rest =>
      some (.ok (.ofDouble (.infinite true), rest))
    | '-' :: rest => readUnsigned? true rest
    | _ => readUnsigned? false s
  reading?.getD (.error (.complain .value s.length))

mutual

/-- The value at the start of a text. -/
def readValue : Nat → List Char → Except Stop (Value × List Char)
  | 0, s => .error (.complain .value s.length)
  | fuel + 1, s =>
    match s with
    | '"' :: rest => (readText rest).map fun r => (.str (String.ofList r.1), r.2)
    | '{' :: rest =>
      match skip rest with
      | '}' :: after => .ok (.ofEntries [], after)
      | first => (readEntries fuel first).map fun r => (.ofEntries (Value.entriesOf r.1), r.2)
    | '[' :: rest =>
      match skip rest with
      | ']' :: after => .ok (.ofList [], after)
      | first => (readItems fuel first).map fun r => (.ofList r.1, r.2)
    | _ => readScalar s

/-- The entries of an object from a name on, up to and with the closing brace. -/
def readEntries : Nat → List Char → Except Stop (List (Value × Value) × List Char)
  | 0, s => .error (.complain .name s.length)
  | fuel + 1, s =>
    match s with
    | '"' :: rest => do
      let (name, s) ← readText rest
      match skip s with
      | ':' :: s =>
        let (value, s) ← readValue fuel (skip s)
        let entry : Value × Value := (.str (String.ofList name), value)
        match skip s with
        | '}' :: s => return ([entry], s)
        | ',' :: s =>
          let (more, s) ← readEntries fuel (skip s)
          return (entry :: more, s)
        | s => .error (.complain .comma s.length)
      | s => .error (.complain .colon s.length)
    | _ => .error (.complain .name s.length)

/-- The items of an array from a value on, up to and with the closing bracket. -/
def readItems : Nat → List Char → Except Stop (List Value × List Char)
  | 0, s => .error (.complain .value s.length)
  | fuel + 1, s => do
    let (value, s) ← readValue fuel s
    match skip s with
    | ']' :: s => return ([value], s)
    | ',' :: s =>
      let (more, s) ← readItems fuel (skip s)
      return (value :: more, s)
    | s => .error (.complain .comma s.length)

end

/-- The value of a whole text, with the stop located in it. -/
def readWhole (s : List Char) : Except Stop Value := do
  if s.head? = some '\uFEFF' then throw (.complain .byteOrderMark s.length)
  let (value, rest) ← readValue (2 * s.length + 2) (skip s)
  match skip rest with
  | [] => return value
  | rest => throw (.complain .extraData rest.length)

/-- Why a text has no JSON value. -/
inductive ReadFault where
  | malformed (fault : SyntaxFault)
  | tooLong (digits : Nat)
  deriving DecidableEq

/-- A stop in the text `s`, located from its start. -/
def Stop.locate (s : List Char) : Stop → ReadFault
  | .complain complaint left => .malformed (.after complaint (s.take (s.length - left)))
  | .tooLong digits => .tooLong digits

/-- The value that a JSON text stands for. -/
def read (s : List Char) : Except ReadFault Value := (readWhole s).mapError (Stop.locate s)

end ZincModel.Json
