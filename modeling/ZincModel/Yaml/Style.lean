import ZincModel.Yaml.Resolution
import ZincModel.Yaml.Sheet

/-!
# The style of a text

How a scalar is written: plainly if its text stands for the same kind of value then and cannot be taken for
anything else, between single quotes if it has nothing but printable ASCII and line feeds apart from spaces,
and else between double quotes. Bytes are written as a block of lines.
-/

namespace ZincModel.Yaml

/-- The style in which a scalar is written. -/
inductive Style where
  | plain
  | single
  | double
  | block
  deriving DecidableEq, Repr

/-- The character needs an escape. -/
def isSpecial (c : Char) : Bool := !(c == '\n' || (0x20 ≤ c.toNat && c.toNat ≤ 0x7E))

/-- The text has more than one line. -/
def isMultiline (s : List Char) : Bool := s.any fun c => c == '\n' || c == '\x85' || c == '\u2028' || c == '\u2029'

/-- A space stands beside the end of a line. -/
def hasSpaceAtBreak : List Char → Bool
  | ' ' :: '\n' :: _ => true
  | '\n' :: ' ' :: _ => true
  | _ :: rest => hasSpaceAtBreak rest
  | [] => false

/-- A colon in front of a blank or at the end, or a number sign behind a blank, is in the text; `afterGap`
tells whether a blank stands before it. -/
def hasMark (afterGap : Bool) : List Char → Bool
  | [] => false
  | c :: rest => (c == ':' && atGap rest) || (c == '#' && afterGap) || hasMark (isGap c) rest

/-- The first character of the text says that it is no plain text. -/
def startsMark : List Char → Bool
  | [] => false
  | c :: rest =>
    "#,[]\x7b\x7d&*!|>'\"%@\x60".toList.contains c || ((c == '?' || c == ':' || c == '-') && atGap rest)

/-- The text can be written plainly. -/
def allowsPlain (s : List Char) : Bool :=
  !(s.any isSpecial || s.contains '\n' || s.head? == some ' ' || s.getLast? == some ' ' ||
    "---".toList.isPrefixOf s || "...".toList.isPrefixOf s || startsMark s || hasMark true s)

/-- The text can be written between single quotes. -/
def allowsSingle (s : List Char) : Bool := !(s.any isSpecial || hasSpaceAtBreak s)

/-- The style of a scalar; `isKey` tells whether it is a key on the same line as its value. -/
def styleOf (isKey : Bool) (tag : Tag) (s : List Char) : Style :=
  if tag == .binary then (if s.isEmpty || isKey then .double else .block)
  else if tagOfPlain s == tag && !(isKey && (s.isEmpty || isMultiline s)) && allowsPlain s then .plain
  else if allowsSingle s && !(isKey && isMultiline s) then .single
  else .double

/-- The tag need not be written, since a text of this style has it anyway. -/
def isImplied (style : Style) (tag : Tag) (s : List Char) : Bool :=
  if style == .plain then tagOfPlain s == tag else tag == .str

/-- Adds a text in its style. -/
def Sheet.scalar (style : Style) (fold : Bool) (indent : Nat) (s : List Char) (p : Sheet) : Sheet :=
  match style with
  | .plain => p.plain fold indent s
  | .single => p.single fold indent s
  | .double => p.double fold indent s
  | .block => p.block indent s

end ZincModel.Yaml
