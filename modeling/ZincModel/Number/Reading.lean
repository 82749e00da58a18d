import ZincModel.Number.Double
import ZincModel.Number.Integer

/-!
# Reading a number

The texts that stand for a double precision number: an optional sign and either digits with an optional
fraction and exponent, or one of the words `inf`, `infinity` and `nan` in any case. Blanks may stand around
it, and single underscores between its digits. The nearest number is taken.
-/

namespace ZincModel.Double

open Integer Text

/-- The digits at the start of a text, and the rest. -/
def takeDigits (s : List Char) : List Char × List Char := (s.takeWhile isDigit, s.dropWhile isDigit)

/-- The text without its underscores, each of which must stand between two digits. -/
def dropUnderscores (afterDigit : Bool) : List Char → Option (List Char)
  | [] => some []
  | c :: rest =>
    if c == '_' then
      match rest with
      | d :: _ => if afterDigit && isDigit d then dropUnderscores false rest else none
      | [] => none
    else (dropUnderscores (isDigit c) rest).map (c :: ·)

/-- The exponent at the start of a text, if there is a complete one, and the rest. -/
def takeExponent? (s : List Char) : Option (Int × List Char) :=
  match s with
  | e :: rest =>
    if e == 'e' || e == 'E' then
      let (negative, rest) :=
        match rest with
        | '+' :: r => (false, r)
        | '-' :: r => (true, r)
        | _ => (false, rest)
      match takeDigits rest with
      | ([], _) => none
      | (ds, after) =>
        let n : Nat := Nat.ofDigitChars 10 ds 0
        some (if negative then -(n : Int) else n, after)
    else none
  | [] => none

/-- The number at the start of a text that holds neither blanks nor underscores, without its sign. -/
def readUnsigned (negative : Bool) (s : List Char) : Option (Double × List Char) :=
  let (whole, rest) := takeDigits s
  let (fraction, rest) :=
    match rest with
    | '.' :: r => takeDigits r
    | _ => ([], rest)
  if whole.isEmpty && fraction.isEmpty then none
  else
    let (e, rest) := (takeExponent? rest).getD (0, rest)
    some (ofDecimal negative (Nat.ofDigitChars 10 (whole ++ fraction) 0) (e - fraction.length), rest)

/-- The text is one of the words for a number that is not finite. -/
def readWord (negative : Bool) (s : List Char) : Option Double :=
  let word := s.map Char.toLower
  if word == "inf".toList || word == "infinity".toList then some (infinite negative)
  else if word == "nan".toList then some nan
  else none

/-- The number that a text stands for. -/
def read? (s : List Char) : Option Double := do
  let s := (s.map plain).dropWhile isSpace
  let s := (s.reverse.dropWhile isSpace).reverse
  let s ← dropUnderscores false s
  let (negative, s) :=
    match s with
    | '+' :: rest => (false, rest)
    | '-' :: rest => (true, rest)
    | _ => (false, s)
  match readWord negative s with
  | some x => some x
  | none =>
    match readUnsigned negative s with
    | some (x, []) => some x
    | _ => none

end ZincModel.Double
