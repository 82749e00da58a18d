import ZincModel.Number.Power

/-!
# Double precision numbers

The numbers of the IEEE 754 format binary64. A finite magnitude is held as its place in the ascending row of
all magnitudes, which is also how the format encodes it in 63 bits; so the order of magnitudes is the order
of codes, each number has one form, and rounding up past the greatest magnitude leads to infinity. Every
operation computes the exact result in integers and rounds once, to the nearest magnitude and on a tie to the
even code. There is one NaN.
-/

namespace ZincModel

/-- The code of infinity, one above the greatest finite magnitude. -/
abbrev Double.infinityCode : Nat := 2047 * twoTo 52

/-- A double precision number. -/
inductive Double where
  | nan
  | infinite (negative : Bool)
  | finite (negative : Bool) (code : Fin Double.infinityCode)
  deriving DecidableEq

namespace Double

/-- The significand of a magnitude, an integer below `2 ^ 53`. -/
def significand (code : Nat) : Nat := if code < twoTo 52 then code else twoTo 52 + code % twoTo 52

/-- A magnitude is its significand times two to this power, shifted by 1074 so that it is natural. -/
def exponent (code : Nat) : Nat := code / twoTo 52 - 1

/-- A magnitude in units of the least one, `2 ^ -1074`. -/
def units (code : Nat) : Nat := significand code * twoTo (exponent code)

/-- The quotient rounded to the nearest integer, on a tie to the even one. -/
def roundQuotient (num den : Nat) : Nat :=
  let q := num / den
  let r := num % den
  if 2 * r < den then q
  else if den < 2 * r then q + 1
  else if q % 2 = 0 then q else q + 1

/-- The code of the magnitude nearest to `num / den`, possibly that of infinity or beyond. -/
def codeOfRatio (num den : Nat) : Nat :=
  if num = 0 then 0
  else
    let low : Int := (num.log2 : Int) - den.log2
    -- the quotient lies between `2 ^ (low - 1)` and `2 ^ (low + 1)`
    let below (e : Int) : Bool := num * twoTo (-e).toNat < den * twoTo e.toNat
    let top := if below low then low else low + 1
    let shift := max (top - 53) (-1074)
    (shift + 1074).toNat * twoTo 52 + roundQuotient (num * twoTo (-shift).toNat) (den * twoTo shift.toNat)

/-- The number with the magnitude of the given code. -/
def ofCode (negative : Bool) (code : Nat) : Double :=
  if h : code < infinityCode then finite negative ⟨code, h⟩ else infinite negative

/-- The number nearest to `num / den`, with the given sign. -/
def ofRatio (negative : Bool) (num den : Nat) : Double := ofCode negative (codeOfRatio num den)

/-- Zero with the given sign. -/
def zero (negative : Bool) : Double := ofCode negative 0

/-- The code of the magnitude nearest to `digits * 10 ^ exponent`. Powers that lead beyond all magnitudes are
not computed. -/
def codeOfDecimal (digits : Nat) (exponent : Int) : Nat :=
  if digits = 0 then 0
  else if 400 < exponent then infinityCode
  else if exponent + digits.log2 / 3 < -400 then 0
  else codeOfRatio (digits * tenTo exponent.toNat) (tenTo (-exponent).toNat)

/-- The number nearest to `digits * 10 ^ exponent`, with the given sign. -/
def ofDecimal (negative : Bool) (digits : Nat) (exponent : Int) : Double :=
  ofCode negative (codeOfDecimal digits exponent)

/-- The number nearest to an integer; `none` if the integer is beyond all finite numbers. -/
def ofInt? (n : Int) : Option Double :=
  match ofRatio (n < 0) n.natAbs 1 with
  | finite negative code => some (finite negative code)
  | _ => none

/-- The number with the opposite sign. -/
def neg : Double → Double
  | nan => nan
  | infinite negative => infinite (!negative)
  | finite negative code => finite (!negative) code

/-- A finite number in units of `2 ^ -1074`. -/
def signedUnits (negative : Bool) (code : Nat) : Int :=
  if negative then -(units code : Int) else units code

/-- The sum. -/
def add : Double → Double → Double
  | nan, _ => nan
  | _, nan => nan
  | infinite a, infinite b => if a = b then infinite a else nan
  | infinite a, finite .. => infinite a
  | finite .., infinite b => infinite b
  | finite a x, finite b y =>
    let sum := signedUnits a x + signedUnits b y
    if sum = 0 then zero (a && b) else ofRatio (sum < 0) sum.natAbs (twoTo 1074)

/-- The product. -/
def mul : Double → Double → Double
  | nan, _ => nan
  | _, nan => nan
  | infinite a, infinite b => infinite (a != b)
  | infinite a, finite b y => if y.val = 0 then nan else infinite (a != b)
  | finite a x, infinite b => if x.val = 0 then nan else infinite (a != b)
  | finite a x, finite b y => ofRatio (a != b) (units x * units y) (twoTo 2148)

/-- The order of two numbers; `none` if one of them is NaN. The two zeros are equal. -/
def compare? : Double → Double → Option Ordering
  | nan, _ => none
  | _, nan => none
  | infinite a, infinite b => some (compare b a)
  | infinite a, finite .. => some (if a then .lt else .gt)
  | finite .., infinite b => some (if b then .gt else .lt)
  | finite a x, finite b y => some (compare (signedUnits a x) (signedUnits b y))

/-- The exact order of a number and an integer; `none` for NaN. -/
def compareInt? : Double → Int → Option Ordering
  | nan, _ => none
  | infinite a, _ => some (if a then .lt else .gt)
  | finite a x, n => some (compare (signedUnits a x) (n * twoTo 1074))

/-- The magnitude of a finite number without its fraction. -/
def wholePart : Double → Nat
  | finite _ code => units code / twoTo 1074
  | _ => 0

/-- The number is zero, with either sign. -/
def isZero : Double → Bool
  | finite _ code => code.val = 0
  | _ => false

end Double

end ZincModel
