import ZincModel.Text.Hexadecimal
import ZincModel.Yaml.Cursor

/-!
# Writing text in lines

A sheet is what has been written so far together with the state of the line that is being written. Marks keep
a distance of one blank from what stands before them. Long texts are folded once a line has gone beyond
column 80: plain texts and texts between single quotes at a single space, texts between double quotes, in
which all but printable ASCII is escaped, with a backslash at the end of the line.
-/

namespace ZincModel.Yaml

open Text

/-- What has been written, and the state of the last line. -/
structure Sheet where
  /-- The characters, the last one first. -/
  written : List Char
  /-- The number of characters on the line. -/
  column : Nat
  /-- A mark can be put here without a blank before it. -/
  afterBlank : Bool
  /-- The line holds nothing but indentation and marks that count as such. -/
  atMargin : Bool

namespace Sheet

/-- The empty sheet. -/
def blank : Sheet := ⟨[], 0, true, true⟩

/-- The column after which lines are folded. -/
def width : Nat := 80

/-- Adds text to the line. -/
def put (s : List Char) (p : Sheet) : Sheet :=
  { p with written := s.reverse ++ p.written, column := p.column + s.length }

/-- Begins a new line. -/
def newLine (p : Sheet) : Sheet :=
  { p with written := '\n' :: p.written, column := 0, afterBlank := true, atMargin := true }

/-- Goes to the column `indent` in front of the next entry or line, on a new line unless there is nothing to
the left of it. -/
def indentTo (indent : Nat) (p : Sheet) : Sheet :=
  let p :=
    if !p.atMargin || indent < p.column || (p.column == indent && !p.afterBlank) then p.newLine else p
  if p.column < indent then { p.put (List.replicate (indent - p.column) ' ') with afterBlank := true } else p

/-- Adds a mark behind a blank; it counts as indentation if `isIndent`. -/
def mark (isIndent : Bool) (s : List Char) (p : Sheet) : Sheet :=
  let p := p.put (if p.afterBlank then s else ' ' :: s)
  { p with afterBlank := false, atMargin := p.atMargin && isIndent }

/-- Adds a mark directly behind what stands before. -/
def close (s : List Char) (p : Sheet) : Sheet := { p.put s with afterBlank := false, atMargin := false }

/-- The line has gone beyond the width. -/
def isFull (p : Sheet) : Bool := width < p.column

/-! ## Texts in their styles -/

/-- The space between two characters is the only one there. -/
def isSingleSpace (before : Option Char) (rest : List Char) : Bool :=
  before != some ' ' && rest.head? != some ' '

/-- Adds the characters of a plain text. -/
def putPlain (fold : Bool) (indent : Nat) (before : Option Char) : List Char → Sheet → Sheet
  | [], p => p
  | c :: rest, p =>
    let p :=
      if c == ' ' && isSingleSpace before rest && p.isFull && fold then
        { p.indentTo indent with afterBlank := false, atMargin := false }
      else p.put [c]
    putPlain fold indent (some c) rest p

/-- Adds a plain text. -/
def plain (fold : Bool) (indent : Nat) (s : List Char) (p : Sheet) : Sheet :=
  if s.isEmpty then p
  else
    let p := if p.afterBlank then p else p.put [' ']
    putPlain fold indent none s { p with afterBlank := false, atMargin := false }

/-- Adds the characters of a text between single quotes. The end of a line is written as an empty line, and a
quote twice. -/
def putSingle (fold : Bool) (indent : Nat) (before : Option Char) : List Char → Sheet → Sheet
  | [], p => p
  | c :: rest, p =>
    let p :=
      if c == ' ' then
        if isSingleSpace before rest && before.isSome && !rest.isEmpty && p.isFull && fold then p.indentTo indent
        else p.put [c]
      else if c == '\n' then
        let p := if before == some '\n' then p else p.newLine
        let p := p.newLine
        if rest.head? == some '\n' then p else p.indentTo indent
      else if c == '\'' then p.put ['\'', '\'']
      else p.put [c]
    putSingle fold indent (some c) rest p

/-- Adds a text between single quotes. -/
def single (fold : Bool) (indent : Nat) (s : List Char) (p : Sheet) : Sheet :=
  (putSingle fold indent none s (p.mark false ['\''])).close ['\'']

/-- The letter that stands for a character behind a backslash. -/
def letter? : Char → Option Char
  | '\x00' => some '0'
  | '\x07' => some 'a'
  | '\x08' => some 'b'
  | '\t' => some 't'
  | '\n' => some 'n'
  | '\x0b' => some 'v'
  | '\x0c' => some 'f'
  | '\r' => some 'r'
  | '\x1b' => some 'e'
  | '"' => some '"'
  | '\\' => some '\\'
  | '\x85' => some 'N'
  | '\xa0' => some '_'
  | '\u2028' => some 'L'
  | '\u2029' => some 'P'
  | _ => none

/-- The escape of a character. -/
def escapeOf (c : Char) : List Char :=
  match letter? c with
  | some l => ['\\', l]
  | none =>
    if c.toNat ≤ 0xFF then '\\' :: 'x' :: hexDigits true 2 c.toNat
    else if c.toNat ≤ 0xFFFF then '\\' :: 'u' :: hexDigits true 4 c.toNat
    else '\\' :: 'U' :: hexDigits true 8 c.toNat

/-- The character stands for itself between double quotes. -/
def isPlainInDouble (c : Char) : Bool := 0x20 ≤ c.toNat && c.toNat ≤ 0x7E && c != '"' && c != '\\'

/-- Ends the line within double quotes. A space in front of the next line is kept by a backslash. -/
def breakDouble (indent : Nat) (rest : List Char) (p : Sheet) : Sheet :=
  let p := { (p.put ['\\']).indentTo indent with afterBlank := false, atMargin := false }
  if rest.head? == some ' ' then p.put ['\\'] else p

/-- Adds the characters of a text between double quotes. Lines are ended in front of a space and on both sides
of an escape. -/
def putDouble (fold : Bool) (indent : Nat) (isFirst afterEscape : Bool) : List Char → Sheet → Sheet
  | [], p => p
  | c :: rest, p =>
    let isInner := !isFirst && !rest.isEmpty
    if isPlainInDouble c then
      let p :=
        if isInner && (c == ' ' || afterEscape) && p.isFull && fold then p.breakDouble indent (c :: rest) else p
      putDouble fold indent false false rest (p.put [c])
    else
      let p := p.put (escapeOf c)
      let p := if isInner && width + 1 < p.column && fold then p.breakDouble indent rest else p
      putDouble fold indent false true rest p

/-- Adds a text between double quotes. -/
def double (fold : Bool) (indent : Nat) (s : List Char) (p : Sheet) : Sheet :=
  (putDouble fold indent true false s (p.mark false ['"'])).close ['"']

/-- Adds the lines of a block. -/
def putLines (indent : Nat) (atStart : Bool) : List Char → Sheet → Sheet
  | [], p => p
  | c :: rest, p =>
    if c == '\n' then putLines indent true rest p.newLine
    else putLines indent false rest ((if atStart then p.indentTo indent else p).put [c])

/-- Adds a text as a block of lines. -/
def block (indent : Nat) (s : List Char) (p : Sheet) : Sheet :=
  putLines indent true s (p.mark false ['|']).newLine

end Sheet

end ZincModel.Yaml
