import ZincModel.Number.Reading
import ZincModel.Text.Lowercase
import ZincModel.Text.Utf8
import ZincModel.Value.Display
import ZincModel.Yaml.Base64
import ZincModel.Yaml.Resolution

/-!
# The values of scalars

The value that a text stands for, by its tag. A text that has the tag because it was given to it need not have the
form that the tag asks for, so every reader can fail.
-/

namespace ZincModel.Yaml

open Text

/-- The parts of a text between colons. -/
def colonParts : List Char → List (List Char)
  | [] => [[]]
  | c :: rest =>
    if c == ':' then [] :: colonParts rest
    else
      match colonParts rest with
      | part :: more => (c :: part) :: more
      | [] => [[c]]

/-- The text without its underscores and sign, and whether the sign is a minus. The text must not be empty. -/
def splitSign (s : List Char) : Except Fault (Bool × List Char) :=
  match s.filter (· != '_') with
  | [] => .error .emptyText
  | '-' :: rest => .ok (true, rest)
  | '+' :: rest => .ok (false, rest)
  | rest => .ok (false, rest)

/-- The integer in a text, in the given base. -/
def readBase (base : Nat) (s : List Char) : Except Fault Int :=
  match Integer.read base s with
  | .ok n => .ok n
  | .error .malformed => .error (.content (.badInteger base (String.ofList s)))
  | .error (.tooLong n) => .error (.content (.integerUnreadable n))

/-- The integer in a text. -/
def intOf (s : List Char) : Except Fault Int := do
  let (negative, s) ← splitSign s
  let n ←
    match s with
    | [] => throw .emptyText
    | ['0'] => pure 0
    | '0' :: 'b' :: rest => readBase 2 rest
    | '0' :: 'x' :: rest => readBase 16 rest
    | '0' :: _ => readBase 8 s
    | _ =>
      if s.contains ':' then do
        let digits ← (colonParts s).mapM (readBase 10)
        pure (digits.foldl (fun n d => 60 * n + d) 0)
      else readBase 10 s
  return if negative then -n else n

/-- The number in a text. -/
def readNumber (s : List Char) : Except Fault Double :=
  match Double.read? s with
  | some x => .ok x
  | none => .error (.content (.badNumber (shown (String.ofList s))))

/-- The sum of the places of base sixty, the lowest one first, of which the first has the weight `base`. -/
def sumSixties (sum : Double) (base : Nat) : List Double → Except Fault Double
  | [] => .ok sum
  | d :: rest =>
    match Double.ofInt? base with
    | some weight => sumSixties (sum.add (d.mul weight)) (base * 60) rest
    | none => .error .tooLarge

/-- The number of the value of all texts `.nan`. -/
def nanNumber : Nat := 1

/-- The floating-point number in a text, which gets a number of its own. -/
def floatOf (number : Nat) (s : List Char) : Except Fault Value := do
  let (negative, s) ← splitSign (lower s)
  if s = ".nan".toList then return .float (some nanNumber) .nan
  let x ←
    if s = ".inf".toList then pure (Double.infinite false)
    else if s.contains ':' then do
      let digits ← (colonParts s).mapM readNumber
      sumSixties (.zero false) 1 digits.reverse
    else readNumber s
  return .float (some number) (if negative then x.neg else x)

/-- The truth value in a text. -/
def boolOf (s : List Char) : Except Fault Bool :=
  let word := String.ofList (lower s)
  if word = "yes" ∨ word = "true" ∨ word = "on" then .ok true
  else if word = "no" ∨ word = "false" ∨ word = "off" then .ok false
  else .error (.missingKey word)

/-- The bytes in a text. -/
def bytesOf (s : List Char) : Except Fault (List UInt8) :=
  if s.all fun c => c.toNat < 128 then
    match Base64.decode s with
    | some bytes => .ok bytes
    | none => .error .yaml
  else .error .yaml

/-- Microseconds from the digits of a fraction of a second. -/
def microseconds (fraction : List Char) : Nat := digitsValue ((fraction ++ List.replicate 6 '0').take 6)

/-- The date or moment in a text, which gets a number. -/
def timestampOf (number : Nat) (s : List Char) : Except Fault Value :=
  let located {α : Type} (r : Except CalendarFault α) : Except Fault α :=
    r.mapError fun f => .content (.calendar f)
  match readTimestamp s with
  | none => .error .noMatch
  | some t =>
    match t.clock with
    | none => (located (Date.make t.year t.month t.day)).map (.date (some number))
    | some c =>
      (located (Moment.make t.year t.month t.day c.hour c.minute c.second (microseconds c.fraction)
        c.offset)).map (.moment (some number))

/-- The value that a text stands for by its tag, with a number where it needs one; a container has no text. -/
def scalarOf (number : Nat) (tag : Tag) (s : List Char) : Except Fault Value :=
  match tag with
  | .null => .ok .null
  | .bool => (boolOf s).map .bool
  | .int => (intOf s).map .int
  | .float => floatOf number s
  | .binary => (bytesOf s).map .bytes
  | .timestamp => timestampOf number s
  | .str => .ok (.str (String.ofList s))
  | _ => .error .yaml

end ZincModel.Yaml
