import ZincModel.Text.Hexadecimal
import ZincModel.Text.Printable

/-!
# Quoted texts

How messages show a text or a row of bytes: between single quotes, or between double quotes if the text holds
a single quote and no double one. The quote and the backslash stand behind a backslash, tab and the newlines
have letters of their own, and all that is not printable is written by its number.
-/

namespace ZincModel.Text

/-- The quote to use around a text. -/
def quoteFor (s : List Char) : Char :=
  if s.contains '\'' && !s.contains '"' then '"' else '\''

/-- The escape of a character by its number, in the shortest of the three forms. -/
def numberEscape (n : Nat) : List Char :=
  if n ≤ 0xFF then '\\' :: 'x' :: hexDigits false 2 n
  else if n ≤ 0xFFFF then '\\' :: 'u' :: hexDigits false 4 n
  else '\\' :: 'U' :: hexDigits false 8 n

/-- One character of a quoted text. -/
def quotedChar (quote c : Char) : List Char :=
  if c == quote || c == '\\' then ['\\', c]
  else if c == '\t' then ['\\', 't']
  else if c == '\n' then ['\\', 'n']
  else if c == '\r' then ['\\', 'r']
  else if isPrintable c then [c]
  else numberEscape c.toNat

/-- The text between quotes. -/
def quoted (s : List Char) : List Char :=
  let quote := quoteFor s
  quote :: s.flatMap (quotedChar quote) ++ [quote]

/-- The bytes between quotes behind a `b`; bytes beyond printable ASCII are written by their number. -/
def quotedBytes (bytes : List UInt8) : List Char :=
  let s := bytes.map fun b => Char.ofNat b.toNat
  let quote := quoteFor s
  let one (c : Char) : List Char :=
    if c.toNat < 0x7F then quotedChar quote c else numberEscape c.toNat
  'b' :: quote :: s.flatMap one ++ [quote]

end ZincModel.Text
