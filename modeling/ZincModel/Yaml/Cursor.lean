import ZincModel.Fault
import ZincModel.Text.Hexadecimal

/-!
# Places in a YAML text

What is left of a text together with the place where it starts, and the classes of characters that the
structure of a YAML text depends on. Lines end at `\n`, `\r`, both together, or one of the newlines of
Unicode; columns count characters.
-/

namespace ZincModel.Yaml

/-- The character may stand in a YAML text. -/
def isReadable (c : Char) : Bool :=
  c == '\t' || c == '\n' || c == '\r' || (0x20 ≤ c.toNat && c.toNat ≤ 0x7E) || c == '\x85' ||
    (0xA0 ≤ c.toNat && c.toNat ≤ 0xD7FF) || (0xE000 ≤ c.toNat && c.toNat ≤ 0xFFFD) || 0x10000 ≤ c.toNat

/-- The character ends a line. -/
def isBreak (c : Char) : Bool := c == '\n' || c == '\r' || c == '\x85' || c == '\u2028' || c == '\u2029'

/-- The character is a space, a tab or ends a line. -/
def isGap (c : Char) : Bool := c == ' ' || c == '\t' || isBreak c

/-- The character may stand in a name: a letter or digit of ASCII, a hyphen or an underscore. -/
def isWord (c : Char) : Bool :=
  ('0' ≤ c && c ≤ '9') || ('A' ≤ c && c ≤ 'Z') || ('a' ≤ c && c ≤ 'z') || c == '-' || c == '_'

/-- Nothing is left, or a line ends here. -/
def atLineEnd : List Char → Bool
  | [] => true
  | c :: _ => isBreak c

/-- Nothing is left, or a space or the end of a line comes next. -/
def atSpace : List Char → Bool
  | [] => true
  | c :: _ => c == ' ' || isBreak c

/-- Nothing is left, or a space, a tab or the end of a line comes next. -/
def atGap : List Char → Bool
  | [] => true
  | c :: _ => isGap c

/-- A document starts here, given that a line does. -/
def atDocumentStart : List Char → Bool
  | '-' :: '-' :: '-' :: rest => atGap rest
  | _ => false

/-- A document ends here, given that a line starts. -/
def atDocumentEnd : List Char → Bool
  | '.' :: '.' :: '.' :: rest => atGap rest
  | _ => false

/-- A document starts or ends here, given that a line starts. -/
def atDocumentMark (s : List Char) : Bool := atDocumentStart s || atDocumentEnd s

/-! ## Texts to be read -/

/-- A text that is to be read: the characters that can be got, and what keeps one from getting the others. -/
structure Input where
  text : List Char
  beyond : Option Fault := none

namespace Input

/-- The input of pieces that are got one after the other; `beyond` is what keeps one from getting more of them.
A piece with an unreadable character cannot be used. -/
def ofReadable (beyond : Option Fault) : List (List Char) → Input
  | [] => ⟨[], beyond⟩
  | piece :: rest =>
    if piece.all isReadable then
      let more := ofReadable beyond rest
      ⟨piece ++ more.text, more.beyond⟩
    else ⟨[], some .yaml⟩

/-- A text that is at hand. -/
def ofText (s : List Char) : Input := ofReadable none [s]

/-- How many characters of a file are got at a time. -/
def pieceSize : Nat := 4096

/-- The text of a file in pieces, the first two of which are got together. -/
def ofPieces (pieces : List (List Char)) (beyond : Option Fault) : Input :=
  match pieces, beyond with
  | first :: second :: rest, beyond => ofReadable beyond ((first ++ second) :: rest)
  | _, some f => ⟨[], some f⟩
  | pieces, none => ofReadable none pieces

end Input

/-! ## Places -/

/-- What is left of a text, and the place where that starts. -/
structure Cursor where
  rest : List Char
  /-- What keeps one from getting the characters behind the rest, if there are others. -/
  beyond : Option Fault
  index : Nat
  line : Nat
  column : Nat
  /-- The number of characters of the whole text. -/
  size : Nat

namespace Cursor

/-- The start of a text. A byte order mark there does not count. -/
def start (s : Input) : Cursor :=
  let text :=
    match s.text with
    | '\uFEFF' :: rest => rest
    | text => text
  ⟨text, s.beyond, 0, 0, 0, s.text.length⟩

/-- A number of steps that no reading takes, if each of its steps reads a character. -/
def bound (c : Cursor) : Nat := c.size + 1

/-- The fault of something else standing here than what should. -/
def unexpected (c : Cursor) : Fault := if c.rest.isEmpty then c.beyond.getD .yaml else .yaml

/-- Looks whether there is a next character; that there is none is no fault. -/
def look (c : Cursor) : Except Fault Unit :=
  match c.rest, c.beyond with
  | [], some f => .error f
  | _, _ => .ok ()

/-- The place behind the next character. -/
def next (c : Cursor) : Cursor :=
  match c.rest with
  | [] => c
  | x :: rest =>
    let index := c.index + 1
    if isBreak x && !(x == '\r' && rest.head? == some '\n') then ⟨rest, c.beyond, index, c.line + 1, 0, c.size⟩
    else if x == '\uFEFF' then ⟨rest, c.beyond, index, c.line, c.column, c.size⟩
    else ⟨rest, c.beyond, index, c.line, c.column + 1, c.size⟩

/-- The place behind the next `n` characters. -/
def advance : Nat → Cursor → Cursor
  | 0, c => c
  | n + 1, c => advance n c.next

/-- The characters up to the first one without property `p`, and the place where that stands. -/
def takeWhile (p : Char → Bool) (c : Cursor) : List Char × Cursor :=
  let taken := c.rest.takeWhile p
  (taken, c.advance taken.length)

/-- The place of the first character without property `p`. -/
def skipWhile (p : Char → Bool) (c : Cursor) : Cursor := (c.takeWhile p).2

/-- The place behind all spaces. -/
def skipSpaces (c : Cursor) : Cursor := c.skipWhile (· == ' ')

/-- The place behind a comment, if there is one here. -/
def skipComment (c : Cursor) : Cursor :=
  match c.rest with
  | '#' :: _ => c.skipWhile (!isBreak ·)
  | _ => c

/-- The end of a line, if it is here: what it counts as in a text, and the place behind it. -/
def lineBreak? (c : Cursor) : Option (Char × Cursor) :=
  match c.rest with
  | '\r' :: '\n' :: _ => some ('\n', c.advance 2)
  | x :: _ =>
    if x == '\n' || x == '\r' || x == '\x85' then some ('\n', c.next)
    else if x == '\u2028' || x == '\u2029' then some (x, c.next)
    else none
  | [] => none

/-- The place behind the end of the line if it is here. -/
def skipBreak (c : Cursor) : Cursor :=
  match c.lineBreak? with
  | some (_, c) => c
  | none => c

/-- The number of `width` hexadecimal digits, and the place behind them. -/
def hexNumber (width : Nat) (c : Cursor) : Except Fault (Nat × Cursor) :=
  let digits := c.rest.take width
  match Text.hexNumber? digits with
  | none => .error .yaml
  | some n => if digits.length = width then .ok (n, c.advance width) else .error (c.advance width).unexpected

/-- The place behind the end of a line of which nothing but spaces and a comment are left. -/
def skipLine (c : Cursor) : Except Fault Cursor :=
  let c := c.skipSpaces.skipComment
  if atLineEnd c.rest then .ok c.skipBreak else .error .yaml

end Cursor

end ZincModel.Yaml
