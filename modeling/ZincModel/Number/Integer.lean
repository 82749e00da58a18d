import ZincModel.Number.Power
import ZincModel.Text.Blank
import ZincModel.Text.DecimalDigit

/-!
# Integers as text

Integers are written in base ten without grouping, but never with more than 4300 digits. They are read in base
two, eight, ten or sixteen, with blanks around them, a sign, the prefix of the base and single underscores
between digits; the digits of every script count. The limit holds for reading in base ten too.
-/

namespace ZincModel.Integer

open Text

/-- The greatest number of decimal digits that is written or read. -/
def digitLimit : Nat := 4300

/-- The decimal numeral of an integer. -/
def numeral (n : Int) : List Char :=
  if n < 0 then '-' :: Nat.toDigits 10 n.natAbs else Nat.toDigits 10 n.natAbs

/-- The integer has no more digits than may be written. -/
def fits (n : Int) : Bool := n.natAbs < tenTo digitLimit

/-- Why a text is not read as an integer. -/
inductive Unreadable where
  | malformed
  | tooLong (digits : Nat)
  deriving DecidableEq, Repr

/-- A character as the readers of numbers see it: blanks beyond ASCII as plain ones, digits of all scripts as
`0` to `9`. -/
def plain (c : Char) : Char :=
  if c.toNat < 128 then c
  else if isBlank c then ' '
  else
    match decimalDigit? c with
    | some d => Char.ofNat (48 + d)
    | none => '?'

/-- The blanks that may stand around a number. -/
def isSpace (c : Char) : Bool := c == ' ' || (9 ≤ c.toNat && c.toNat ≤ 13)

/-- The value of a digit in the given base. -/
def digitValue? (base : Nat) (c : Char) : Option Nat :=
  let value? :=
    if '0' ≤ c ∧ c ≤ '9' then some (c.toNat - 48)
    else if 'a' ≤ c ∧ c ≤ 'z' then some (c.toNat - 87)
    else if 'A' ≤ c ∧ c ≤ 'Z' then some (c.toNat - 55)
    else none
  value?.bind fun d => if d < base then some d else none

/-- The letters that announce a base. -/
def isBaseLetter (base : Nat) (c : Char) : Bool :=
  (base == 16 && (c == 'x' || c == 'X')) || (base == 8 && (c == 'o' || c == 'O')) ||
    (base == 2 && (c == 'b' || c == 'B'))

/-- The text without the prefix of its base, such as `0x` or `0x_`. -/
def dropBasePrefix (base : Nat) : List Char → List Char
  | '0' :: c :: rest =>
    if isBaseLetter base c then
      match rest with
      | '_' :: rest' => rest'
      | _ => rest
    else '0' :: c :: rest
  | s => s

/-- The digits of a row of digits and single underscores, and the rest of the text; `none` if an underscore
does not stand between two digits. `afterDigit` tells whether a digit has just been read. -/
def digitRun (base : Nat) (afterDigit : Bool) : List Char → Option (List Nat × List Char)
  | [] => some ([], [])
  | c :: rest =>
    if c == '_' then
      match rest with
      | d :: _ => if afterDigit && (digitValue? base d).isSome then digitRun base false rest else none
      | [] => none
    else
      match digitValue? base c with
      | some d => (digitRun base true rest).map fun r => (d :: r.1, r.2)
      | none => some ([], c :: rest)

/-- The integer that a text stands for in the given base. -/
def read (base : Nat) (s : List Char) : Except Unreadable Int :=
  let s := (s.map plain).dropWhile isSpace
  let (negative, s) :=
    match s with
    | '+' :: rest => (false, rest)
    | '-' :: rest => (true, rest)
    | _ => (false, s)
  match digitRun base false (dropBasePrefix base s) with
  | none => .error .malformed
  | some ([], _) => .error .malformed
  | some (digits, rest) =>
    if base == 10 && digitLimit < digits.length then .error (.tooLong digits.length)
    else if !rest.all isSpace then .error .malformed
    else
      let n : Nat := digits.foldl (fun n d => base * n + d) 0
      .ok (if negative then -(n : Int) else n)

end ZincModel.Integer
