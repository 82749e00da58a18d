import ZincModel.Text.Hexadecimal
import ZincModel.Yaml.Cursor

/-!
# Texts in their styles

The text of a scalar that starts at a place, in each of the styles: plain, between single or double quotes, or
in a block of lines of its own, folded or not. Within a plain or quoted text the end of a line counts as a
space, or, where empty lines follow, as these.
-/

namespace ZincModel.Yaml

open Text

/-- What the end of a line and the ends of the empty lines behind it count as. -/
def folded (first : Char) (more : List Char) : List Char :=
  if first ≠ '\n' then first :: more
  else if more.isEmpty then [' ']
  else more

/-! ## Plain texts -/

/-- The character cannot stand in a plain text between brackets. -/
def isFlowMark (c : Char) : Bool := c == ',' || c == '?' || c == '[' || c == ']' || c == '\x7b' || c == '\x7d'

/-- The colon in front of this ends a plain text. -/
def endsPlain (inFlow : Bool) (s : List Char) : Bool :=
  atGap s || (inFlow &&
    match s with
    | c :: _ => c == ',' || c == '[' || c == ']' || c == '\x7b' || c == '\x7d'
    | [] => false)

/-- The characters of a plain text up to the next blank. -/
def plainRun (inFlow : Bool) : List Char → List Char
  | [] => []
  | c :: rest =>
    if isGap c || (c == ':' && endsPlain inFlow rest) || (inFlow && isFlowMark c) then []
    else c :: plainRun inFlow rest

/-- The ends of the empty lines that follow, and the place behind them and all spaces; none if a document
starts or ends in between. -/
def plainBreaks : Nat → Cursor → Option (List Char) × Cursor
  | 0, c => (some [], c)
  | fuel + 1, c =>
    let c := c.skipSpaces
    match c.lineBreak? with
    | none => (some [], c)
    | some (first, c) =>
      if atDocumentMark c.rest then (none, c)
      else
        let (more, c) := plainBreaks fuel c
        (more.map (first :: ·), c)

/-- The blanks behind a run of a plain text. -/
structure PlainGap where
  /-- What they count as if the text goes on; nothing if it cannot. -/
  text : List Char
  /-- A line has ended. -/
  broken : Bool
  after : Cursor

/-- The blanks at a place behind a run of a plain text. -/
def plainGap (c : Cursor) : PlainGap :=
  let (spaces, c) := c.takeWhile (· == ' ')
  match c.lineBreak? with
  | none => ⟨spaces, false, c⟩
  | some (first, c) =>
    if atDocumentMark c.rest then ⟨[], true, c⟩
    else
      match plainBreaks c.bound c with
      | (some more, c) => ⟨folded first more, true, c⟩
      | (none, c) => ⟨[], true, c⟩

/-- A comment starts here, given that a blank stands before. -/
def atComment (s : List Char) : Bool := s.head? == some '#'

/-- The text of a plain scalar from behind a gap on; outside of brackets it ends with the first line that is
indented by less than `least`. -/
def plainFrom (inFlow : Bool) (least : Int) : Nat → PlainGap → List Char × PlainGap
  | 0, gap => ([], gap)
  | fuel + 1, gap =>
    let run := if atComment gap.after.rest then [] else plainRun inFlow gap.after.rest
    if run.isEmpty then ([], gap)
    else
      let next := plainGap (gap.after.advance run.length)
      if next.text.isEmpty || atComment next.after.rest || (!inFlow && (next.after.column : Int) < least) then
        (gap.text ++ run, next)
      else
        let (more, last) := plainFrom inFlow least fuel next
        (gap.text ++ run ++ more, last)

/-- The text of the plain scalar at a place, and the blanks behind it. -/
def plainText (inFlow : Bool) (least : Int) (c : Cursor) : List Char × PlainGap :=
  plainFrom inFlow least c.bound ⟨[], false, c⟩

/-! ## Quoted texts -/

/-- The ends of the empty lines that follow within quotes, and the place behind them and all blanks. -/
def quotedBreaks : Nat → Cursor → Except Fault (List Char × Cursor)
  | 0, c => .ok ([], c)
  | fuel + 1, c =>
    if atDocumentMark c.rest then .error .yaml
    else
      let c := c.skipWhile fun x => x == ' ' || x == '\t'
      match c.lineBreak? with
      | none => .ok ([], c)
      | some (first, c) => (quotedBreaks fuel c).map fun r => (first :: r.1, r.2)

/-- What the blanks at a place within quotes count as, and the place behind them. -/
def quotedGap (c : Cursor) : Except Fault (List Char × Cursor) :=
  let (blanks, c) := c.takeWhile fun x => x == ' ' || x == '\t'
  if c.rest.isEmpty then .error c.unexpected
  else
    match c.lineBreak? with
    | none => .ok (blanks, c)
    | some (first, c) => (quotedBreaks c.bound c).map fun r => (folded first r.1, r.2)

/-- The character that a letter behind a backslash stands for. -/
def unescape? : Char → Option Char
  | '0' => some '\x00'
  | 'a' => some '\x07'
  | 'b' => some '\x08'
  | 't' => some '\t'
  | '\t' => some '\t'
  | 'n' => some '\n'
  | 'v' => some '\x0b'
  | 'f' => some '\x0c'
  | 'r' => some '\r'
  | 'e' => some '\x1b'
  | ' ' => some ' '
  | '"' => some '"'
  | '\\' => some '\\'
  | '/' => some '/'
  | 'N' => some '\x85'
  | '_' => some '\xa0'
  | 'L' => some '\u2028'
  | 'P' => some '\u2029'
  | _ => none

/-- How many hexadecimal digits follow a letter behind a backslash. -/
def escapeWidth? : Char → Option Nat
  | 'x' => some 2
  | 'u' => some 4
  | 'U' => some 8
  | _ => none

/-- The character of a number. A half of one is U+FFFD, as it is in JSON texts. -/
def charOfNumber (n : Nat) : Except Fault Char :=
  if 0x7FFFFFFF < n then .error .characterTooLarge
  else if 0x10FFFF < n then .error (.content .badCharacter)
  else if 0xD800 ≤ n ∧ n < 0xE000 then .ok '\uFFFD'
  else .ok (Char.ofNat n)

/-- What an escape stands for, from behind its backslash on, and the place behind it. -/
def escape (c : Cursor) : Except Fault (List Char × Cursor) :=
  match c.rest with
  | [] => .error c.unexpected
  | x :: _ =>
    match unescape? x with
    | some y => .ok ([y], c.next)
    | none =>
      match escapeWidth? x with
      | some width => do
        let (n, c) ← c.next.hexNumber width
        return ([← charOfNumber n], c)
      | none =>
        match c.lineBreak? with
        | some (_, c) => quotedBreaks c.bound c
        | none => .error .yaml

/-- The characters within double quotes up to the next blank or quote. -/
def doubleRun : Nat → Cursor → Except Fault (List Char × Cursor)
  | 0, c => .ok ([], c)
  | fuel + 1, c =>
    match c.rest with
    | [] => .ok ([], c)
    | x :: _ =>
      if isGap x || x == '"' then .ok ([], c)
      else if x == '\\' then do
        let (text, c) ← escape c.next
        let (more, c) ← doubleRun fuel c
        return (text ++ more, c)
      else (doubleRun fuel c.next).map fun r => (x :: r.1, r.2)

/-- The characters within single quotes up to the next blank or quote. -/
def singleRun : Nat → Cursor → List Char × Cursor
  | 0, c => ([], c)
  | fuel + 1, c =>
    match c.rest with
    | [] => ([], c)
    | '\'' :: '\'' :: _ =>
      let (more, c) := singleRun fuel (c.advance 2)
      ('\'' :: more, c)
    | x :: _ =>
      if isGap x || x == '\'' then ([], c)
      else
        let (more, c) := singleRun fuel c.next
        (x :: more, c)

/-- The rest of a text between quotes, and the place behind the closing one. -/
def quotedFrom (quote : Char) : Nat → Cursor → Except Fault (List Char × Cursor)
  | 0, _ => .error .yaml
  | fuel + 1, c => do
    let (run, c) ←
      if quote == '"' then doubleRun c.bound c else .ok (singleRun c.bound c)
    if c.rest.head? = some quote then return (run, c.next)
    else
      let (gap, c) ← quotedGap c
      let (more, c) ← quotedFrom quote fuel c
      return (run ++ gap ++ more, c)

/-- The text between quotes at a place, and the place behind it. -/
def quotedText (quote : Char) (c : Cursor) : Except Fault (List Char × Cursor) :=
  quotedFrom quote c.bound c.next

/-! ## Blocks of lines -/

/-- What is done with the ends of lines at the end of a block: one is kept, none, or all. -/
inductive Chomp where
  | clip
  | drop
  | keep
  deriving DecidableEq

/-- The signs behind the indicator of a block: what is done at its end, and by how much it is indented. -/
structure BlockHeader where
  chomp : Chomp
  indentation : Option Nat

/-- What a sign says about the end of a block. -/
def chomp? : List Char → Option Chomp
  | '+' :: _ => some .keep
  | '-' :: _ => some .drop
  | _ => none

/-- The indentation that a digit gives, if there is one; it cannot be zero. -/
def indentation? : List Char → Except Fault (Option Nat)
  | '0' :: _ => .error .yaml
  | x :: _ => .ok (asciiDigit? x)
  | [] => .ok none

/-- The signs at a place, in either order. -/
def blockHeader (c : Cursor) : Except Fault (BlockHeader × Cursor) := do
  let (header, c) ←
    match chomp? c.rest with
    | some chomp => do
      let indentation ← indentation? c.next.rest
      pure ((⟨chomp, indentation⟩ : BlockHeader), if indentation.isSome then c.advance 2 else c.next)
    | none =>
      match ← indentation? c.rest with
      | some n =>
        match chomp? c.next.rest with
        | some chomp => pure (⟨chomp, some n⟩, c.advance 2)
        | none => pure (⟨.clip, some n⟩, c.next)
      | none => pure (⟨.clip, none⟩, c)
  if atSpace c.rest then return (header, c) else throw .yaml

/-- The place behind the spaces of a line up to a column. -/
def skipIndentation (indent : Nat) (c : Cursor) : Cursor :=
  c.advance ((c.rest.take (indent - c.column)).takeWhile (· == ' ')).length

/-- The ends of the empty lines that follow in a block, and the place behind them and the indentation. -/
def blockBreaks (indent : Nat) : Nat → Cursor → List Char × Cursor
  | 0, c => ([], c)
  | fuel + 1, c =>
    let c := skipIndentation indent c
    match c.lineBreak? with
    | none => ([], c)
    | some (first, c) =>
      let (more, c) := blockBreaks indent fuel c
      (first :: more, c)

/-- The ends of the empty lines at the start of a block, and the greatest column reached by them or by the
indentation of the first other line, whose place is returned too. -/
def blockStart : Nat → Nat → Cursor → List Char × Nat × Cursor
  | 0, widest, c => ([], widest, c)
  | fuel + 1, widest, c =>
    let c := c.skipSpaces
    let widest := max widest c.column
    match c.lineBreak? with
    | none => ([], widest, c)
    | some (first, c) =>
      let (more, widest, c) := blockStart fuel widest c
      (first :: more, widest, c)

/-- The lines of a block. -/
structure BlockLines where
  text : List Char
  /-- The end of the last line, unless the text ends with it. -/
  ending : List Char
  /-- The ends of the empty lines behind. -/
  breaks : List Char
  after : Cursor

/-- A tab or space comes next. -/
def atBlank (s : List Char) : Bool :=
  match s with
  | c :: _ => c == ' ' || c == '\t'
  | [] => false

/-- What the end of a line counts as between two lines of a block. -/
def blockJoint (fold : Bool) (line next : List Char) (ending breaks : List Char) : List Char :=
  if fold && ending == ['\n'] && !atBlank line && !atBlank next then
    if breaks.isEmpty then [' '] else breaks
  else ending ++ breaks

/-- The lines of a block from the first one on that is neither empty nor indented by less than `indent`;
`before` counts as what stands before it. -/
def blockLines (fold : Bool) (indent : Nat) : Nat → (before : List Char) → Cursor → BlockLines
  | 0, before, c => ⟨before, [], [], c⟩
  | fuel + 1, before, c =>
    let start := c.rest
    let (line, c) := c.takeWhile (!isBreak ·)
    let (ending, c) :=
      match c.lineBreak? with
      | some (x, c) => ([x], c)
      | none => ([], c)
    let (breaks, c) := blockBreaks indent c.bound c
    if c.column = indent ∧ c.rest ≠ [] then
      let more := blockLines fold indent fuel (blockJoint fold start c.rest ending breaks) c
      { more with text := before ++ line ++ more.text }
    else ⟨before ++ line, ending, breaks, c⟩

/-- The text of a block from behind its indicator on, within a structure indented by `indent`, and the place
behind it. -/
def blockText (fold : Bool) (indent : Int) (c : Cursor) : Except Fault (List Char × Cursor) := do
  let (header, c) ← blockHeader c
  let c ← c.skipLine
  let least := max 1 (indent + 1).toNat
  let fuel := c.bound
  let (breaks, indent, c) :=
    match header.indentation with
    | some n =>
      let indent := least + n - 1
      let (breaks, c) := blockBreaks indent fuel c
      (breaks, indent, c)
    | none =>
      let (breaks, widest, c) := blockStart fuel 0 c
      (breaks, max least widest, c)
  let lines : BlockLines :=
    if c.column = indent ∧ c.rest ≠ [] then blockLines fold indent fuel breaks c else ⟨[], [], breaks, c⟩
  let ending :=
    match header.chomp with
    | .drop => []
    | .clip => lines.ending
    | .keep => lines.ending ++ lines.breaks
  return (lines.text ++ ending, lines.after)

end ZincModel.Yaml
