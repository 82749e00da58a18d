import ZincModel.Number.Double

/-!
# The shortest decimal of a number

A double precision number is written with the fewest digits that identify it: among the decimals with that
many digits that are nearest to this number and to no other one, the one closest to it, on a tie the one
with the even last digit. The layout is positional for exponents from -4 to 15, with at least one digit
behind the point, and otherwise scientific with a signed exponent of at least two digits.
-/

namespace ZincModel.Double

/-- A decimal, `digits * 10 ^ exponent`. -/
structure Decimal where
  digits : Nat
  exponent : Int
  deriving DecidableEq, Repr

/-- The magnitude of the given code is the nearest one to the decimal. -/
def Decimal.isFor (d : Decimal) (code : Nat) : Bool := codeOfDecimal d.digits d.exponent = code

/-- The least `k ≥ from` with `num / den < 10 ^ k`, which is at most `fuel` above. -/
def leadingExponent (num den : Nat) : Nat → Int → Int
  | 0, k => k
  | fuel + 1, k =>
    if num * tenTo (-k).toNat < den * tenTo k.toNat then k else leadingExponent num den fuel (k + 1)

/-- The better one of the two decimals with exponent `e` next to `num / den` that identify the magnitude. -/
def nearestAt (code num den : Nat) (e : Int) : Option Decimal :=
  let n := num * tenTo (-e).toNat
  let d := den * tenTo e.toNat
  let low : Decimal := ⟨n / d, e⟩
  let high : Decimal := ⟨n / d + 1, e⟩
  match low.isFor code, high.isFor code with
  | true, true =>
    let twice := 2 * (n % d)
    if twice < d then some low
    else if d < twice then some high
    else if low.digits % 2 = 0 then some low else some high
  | true, false => some low
  | false, true => some high
  | false, false => none

/-- The first hit on grids that get finer by one digit each time. -/
def search (code num den : Nat) : Nat → Int → Option Decimal
  | 0, _ => none
  | fuel + 1, e => (nearestAt code num den e).orElse fun _ => search code num den fuel (e - 1)

/-- The decimal without zeros at the end of its digits; `fuel` is at least their number. -/
def Decimal.trimmed : Nat → Decimal → Decimal
  | 0, d => d
  | fuel + 1, d =>
    if d.digits ≠ 0 ∧ d.digits % 10 = 0 then Decimal.trimmed fuel ⟨d.digits / 10, d.exponent + 1⟩ else d

/-- The shortest decimal that identifies the magnitude of a code other than zero. Seventeen digits always
suffice; were they not to, the exact decimal is the answer. -/
def shortest (code : Nat) : Decimal :=
  let num := significand code * twoTo (exponent code - 1074)
  let den := twoTo (1074 - exponent code)
  let log : Int := (num.log2 : Int) - den.log2
  let k := leadingExponent num den 4 (log * 78913 / 262144)
  match search code num den 17 (k - 1) with
  | some d => d.trimmed 17
  | none => ⟨units code * Nat.pow 5 1074, -1074⟩

/-- The digits of a decimal, laid out. -/
def Decimal.layout (d : Decimal) : List Char :=
  let ds := Nat.toDigits 10 d.digits
  let point : Int := ds.length + d.exponent
  if -4 < point ∧ point ≤ 16 then
    if point ≤ 0 then '0' :: '.' :: List.replicate (-point).toNat '0' ++ ds
    else if (ds.length : Int) ≤ point then ds ++ List.replicate (point - ds.length).toNat '0' ++ ['.', '0']
    else ds.take point.toNat ++ '.' :: ds.drop point.toNat
  else
    let e := point - 1
    let es := Nat.toDigits 10 e.natAbs
    let fraction := if ds.length = 1 then [] else '.' :: ds.drop 1
    ds.take 1 ++ fraction ++ 'e' :: (if e < 0 then '-' else '+') :: (if es.length < 2 then '0' :: es else es)

/-- A number as text. -/
def text : Double → List Char
  | nan => ['n', 'a', 'n']
  | infinite negative => (if negative then ['-'] else []) ++ ['i', 'n', 'f']
  | finite negative code =>
    (if negative then ['-'] else []) ++
      (if code.val = 0 then ['0', '.', '0'] else (shortest code).layout)

end ZincModel.Double
