import ZincModel.Text.CodePoint

/-!
# Bytes as text in base 64

Every three bytes are written as four characters, padded with `=`, on lines of 76 characters. The reading is
lenient: other characters are skipped, and padding ends the text once it completes a group.
-/

namespace ZincModel.Yaml.Base64

/-- The character of a value below 64. -/
def digit (n : Nat) : Char :=
  if n < 26 then Char.ofNat (65 + n)
  else if n < 52 then Char.ofNat (71 + n)
  else if n < 62 then Char.ofNat (n - 4)
  else if n = 62 then '+' else '/'

/-- The value of a character. -/
def value? (c : Char) : Option Nat :=
  if 'A' ≤ c ∧ c ≤ 'Z' then some (c.toNat - 65)
  else if 'a' ≤ c ∧ c ≤ 'z' then some (c.toNat - 71)
  else if '0' ≤ c ∧ c ≤ '9' then some (c.toNat + 4)
  else if c = '+' then some 62
  else if c = '/' then some 63
  else none

/-- The characters for a row of bytes. -/
def groups : List UInt8 → List Char
  | [] => []
  | [a] =>
    let n := a.toNat * 16
    [digit (n / 64), digit (n % 64), '=', '=']
  | [a, b] =>
    let n := (a.toNat * 256 + b.toNat) * 4
    [digit (n / 4096), digit (n / 64 % 64), digit (n % 64), '=']
  | a :: b :: c :: rest =>
    let n := (a.toNat * 256 + b.toNat) * 256 + c.toNat
    digit (n / 262144) :: digit (n / 4096 % 64) :: digit (n / 64 % 64) :: digit (n % 64) :: groups rest

/-- The lines of a row of bytes. -/
def lines (bytes : List UInt8) : List (List Char) := go bytes.length (groups bytes)
where
  go : Nat → List Char → List (List Char)
    | 0, _ => []
    | fuel + 1, cs => if cs.isEmpty then [] else cs.take 76 :: go fuel (cs.drop 76)

/-- The bytes of a text, from within a group on: `place` characters of the group have been read, `left` holds
the bits of the last one that no byte has taken, and `pads` paddings came directly before. -/
def decodeFrom (place left pads : Nat) : List Char → Option (List UInt8)
  | [] => if place = 0 then some [] else none
  | c :: rest =>
    if c = '=' then
      if 2 ≤ place ∧ 4 ≤ place + pads + 1 then some [] else decodeFrom place left (pads + 1) rest
    else
      match value? c with
      | none => decodeFrom place left pads rest
      | some n =>
        match place with
        | 0 => decodeFrom 1 n 0 rest
        | 1 => (decodeFrom 2 (n % 16) 0 rest).map (UInt8.ofNat (left * 4 + n / 16) :: ·)
        | 2 => (decodeFrom 3 (n % 4) 0 rest).map (UInt8.ofNat (left * 16 + n / 4) :: ·)
        | _ => (decodeFrom 0 0 0 rest).map (UInt8.ofNat (left * 64 + n) :: ·)

/-- The bytes that a text stands for; none if its last group is not complete. -/
def decode (s : List Char) : Option (List UInt8) := decodeFrom 0 0 0 s

end ZincModel.Yaml.Base64
