import ZincModel.Yaml.Token

/-!
# From a text to its tokens

The tokens of a YAML text. Outside of brackets blocks are started and ended by the columns of what they hold.
That something is a key is known only when the colon behind it is met, so every piece that could be one is
kept in mind, one at each depth of brackets, with the number of tokens before it. At the colon the token that
says so, and the start of a block if the key opens one, are put there. A piece ceases to be a possible key at
the end of its line, and after 1024 characters.
-/

namespace ZincModel.Yaml

/-- A piece that is a key if a colon follows. -/
structure PossibleKey where
  /-- The depth of brackets around it. -/
  depth : Nat
  /-- The number of tokens before it. -/
  place : Nat
  /-- Without a colon it would end the block it stands in. -/
  required : Bool
  start : Cursor

/-- How far the reading of tokens has come. -/
structure Layout where
  cursor : Cursor
  /-- The tokens so far, the last one first. -/
  tokens : List Token
  /-- The number of tokens so far. -/
  count : Nat
  /-- The number of open brackets. -/
  depth : Nat
  /-- The column of the innermost open block; -1 outside of all. -/
  indent : Int
  /-- The columns of the blocks around that one. -/
  outer : List Int
  /-- The next piece can be a key. -/
  keyAllowed : Bool
  possible : List PossibleKey

namespace Layout

/-- The start of a text. -/
def start (s : Input) : Layout := ⟨.start s, [], 0, 0, -1, [], true, []⟩

/-- The place is inside of brackets. -/
def inFlow (l : Layout) : Bool := l.depth != 0

/-- Adds a token behind the others. -/
def add (t : Token) (l : Layout) : Layout := { l with tokens := t :: l.tokens, count := l.count + 1 }

/-- Adds a token of one character, which is read. -/
def addMark (t : Token) (l : Layout) : Layout := { l.add t with cursor := l.cursor.next }

/-- Adds a token behind the first `place` ones. -/
def insert (place : Nat) (t : Token) (l : Layout) : Layout :=
  let behind := l.count - place
  { l with tokens := l.tokens.take behind ++ t :: l.tokens.drop behind, count := l.count + 1 }

/-- The place behind the blanks and comments before the next piece. A new line outside of brackets can start
with a key. -/
def skipToPiece : Nat → Layout → Layout
  | 0, l => l
  | fuel + 1, l =>
    let c := l.cursor.skipSpaces.skipComment
    match c.lineBreak? with
    | none => { l with cursor := c }
    | some (_, c) => skipToPiece fuel { l with cursor := c, keyAllowed := l.keyAllowed || !l.inFlow }

/-- A possible key is none any more at this place. -/
def isStale (c : Cursor) (k : PossibleKey) : Bool := k.start.line != c.line || k.start.index + 1024 < c.index

/-- Forgets the possible keys that are none any more. -/
def dropStale (l : Layout) : Except Fault Layout :=
  if l.possible.any fun k => isStale l.cursor k && k.required then .error .yaml
  else .ok { l with possible := l.possible.filter fun k => !isStale l.cursor k }

/-- The possible key at the present depth. -/
def possibleKey? (l : Layout) : Option PossibleKey := l.possible.find? (·.depth == l.depth)

/-- Forgets the possible key at the present depth. -/
def forgetKey (l : Layout) : Layout := { l with possible := l.possible.filter (·.depth != l.depth) }

/-- Forgets the possible key at the present depth, which must not be needed. -/
def dropKey (l : Layout) : Except Fault Layout :=
  if l.possibleKey?.any (·.required) then .error .yaml else .ok l.forgetKey

/-- Keeps in mind that the piece at this place may be a key. -/
def noteKey (l : Layout) : Except Fault Layout :=
  if l.keyAllowed then do
    let l ← l.dropKey
    let required := !l.inFlow && l.indent == l.cursor.column
    return { l with possible := ⟨l.depth, l.count, required, l.cursor⟩ :: l.possible }
  else .ok l

/-- Ends the blocks that are indented by more than `column`, unless inside of brackets. -/
def endBlocks (column : Int) (l : Layout) : Layout :=
  if l.inFlow then l else go l l.outer
where
  go (l : Layout) : List Int → Layout
    | [] => { l with outer := [] }
    | o :: outer =>
      if column < l.indent then go { l.add .blockEnd with indent := o } outer else { l with outer := o :: outer }

/-- Opens a block at a column if it is indented by more than the one around it, with the token `t` behind the
first `place` ones. -/
def openBlock (column place : Nat) (t : Token) (l : Layout) : Layout :=
  if l.indent < column then
    { l.insert place t with indent := column, outer := l.indent :: l.outer }
  else l

/-- Adds a mark that starts an item or entry of a block; outside of brackets it must be allowed here, and may
open a block, which the token `opening` says. -/
def addEntry (opening t : Token) (keyAllowed : Bool) (l : Layout) : Except Fault Layout := do
  if !l.inFlow && !l.keyAllowed then throw .yaml
  let l := if l.inFlow then l else l.openBlock l.cursor.column l.count opening
  let l ← { l with keyAllowed := keyAllowed }.dropKey
  return l.addMark t

/-- Adds the colon between a key and its value. -/
def addValue (l : Layout) : Except Fault Layout :=
  match l.possibleKey? with
  | some k =>
    let l := l.forgetKey.insert k.place .key
    let l := if l.inFlow then l else l.openBlock k.start.column k.place .blockMapping
    .ok ({ l with keyAllowed := false }.addMark .value)
  | none => l.addEntry .blockMapping .value (!l.inFlow)

/-- Adds an opening bracket. -/
def openFlow (t : Token) (l : Layout) : Except Fault Layout := do
  let l ← l.noteKey
  return { l with depth := l.depth + 1, keyAllowed := true }.addMark t

/-- Adds a closing bracket. -/
def closeFlow (t : Token) (l : Layout) : Except Fault Layout := do
  let l ← l.dropKey
  return { l with depth := l.depth - 1, keyAllowed := false }.addMark t

/-- Adds a comma. -/
def addComma (l : Layout) : Except Fault Layout := do
  let l ← { l with keyAllowed := true }.dropKey
  return l.addMark .comma

/-- Adds a piece that may be a key, read by `read`. -/
def addPiece (read : Cursor → Except Fault (Token × Cursor)) (l : Layout) : Except Fault Layout := do
  let l ← l.noteKey
  let (t, c) ← read l.cursor
  return { l.add t with cursor := c, keyAllowed := false }

/-- Adds a plain text. -/
def addPlain (l : Layout) : Except Fault Layout := do
  let l ← l.noteKey
  let (text, gap) := plainText l.inFlow (l.indent + 1) l.cursor
  return { l.add (.scalar true text) with cursor := gap.after, keyAllowed := gap.broken }

/-- Adds a block of lines. -/
def addBlockText (fold : Bool) (l : Layout) : Except Fault Layout := do
  let l ← { l with keyAllowed := true }.dropKey
  let (text, c) ← blockText fold l.indent l.cursor.next
  return { l.add (.scalar false text) with cursor := c }

/-- Ends all blocks, before a piece that stands outside of every document. -/
def leaveDocument (l : Layout) : Except Fault Layout := do
  let l ← (l.endBlocks (-1)).dropKey
  return { l with keyAllowed := false }

/-- Adds the start or end of a document. -/
def addDocumentMark (t : Token) (l : Layout) : Except Fault Layout := do
  let l ← l.leaveDocument
  return { l.add t with cursor := l.cursor.advance 3 }

/-- The characters that start a piece of their own kind and therefore no plain text. -/
def isIndicator (c : Char) : Bool := "-?:,[]\x7b\x7d#&*!|>'\"%@\x60".toList.contains c

/-- A plain text starts here. -/
def atPlain (inFlow : Bool) : List Char → Bool
  | [] => false
  | c :: rest =>
    !(isGap c || isIndicator c) ||
      (!atGap rest && (c == '-' || (!inFlow && (c == '?' || c == ':'))))

/-- A name behind its indicator. -/
def readName (t : List Char → Token) (c : Cursor) : Except Fault (Token × Cursor) :=
  (anchorName c.next).map fun r => (t r.1, r.2)

/-- A text between quotes. -/
def readQuoted (quote : Char) (c : Cursor) : Except Fault (Token × Cursor) :=
  (quotedText quote c).map fun r => (.scalar false r.1, r.2)

/-- Adds the directive at this place. -/
def addDirective (l : Layout) : Except Fault Layout := do
  let l ← l.leaveDocument
  let (t, c) ← directive l.cursor.next
  return { l.add t with cursor := c }

/-- Adds the next piece, which is there. -/
def addNext (l : Layout) : Except Fault Layout :=
  let s := l.cursor.rest
  let atStart := l.cursor.column == 0
  if s.head? == some '%' && atStart then l.addDirective
  else if atStart && atDocumentStart s then l.addDocumentMark .documentStart
  else if atStart && atDocumentEnd s then l.addDocumentMark .documentEnd
  else
    match s with
    | '[' :: _ => l.openFlow .flowSequence
    | '\x7b' :: _ => l.openFlow .flowMapping
    | ']' :: _ => l.closeFlow .flowSequenceEnd
    | '\x7d' :: _ => l.closeFlow .flowMappingEnd
    | ',' :: _ => l.addComma
    | c :: rest =>
      let isMark := atGap rest
      if c == '-' && isMark then l.addEntry .blockSequence .item true
      else if c == '?' && (l.inFlow || isMark) then l.addEntry .blockMapping .key (!l.inFlow)
      else if c == ':' && (l.inFlow || isMark) then l.addValue
      else if c == '*' then l.addPiece (readName .alias)
      else if c == '&' then l.addPiece (readName .anchor)
      else if c == '!' then l.addPiece tagAt
      else if c == '|' && !l.inFlow then l.addBlockText false
      else if c == '>' && !l.inFlow then l.addBlockText true
      else if c == '\'' || c == '"' then l.addPiece (readQuoted c)
      else if atPlain l.inFlow s then l.addPlain
      else .error .yaml
    | [] => .error .yaml

/-- Goes to the next piece: possible keys are forgotten and blocks ended on the way. -/
def approach (l : Layout) : Except Fault Layout := do
  let l := l.skipToPiece l.cursor.bound
  l.cursor.look
  let l ← l.dropStale
  return l.endBlocks l.cursor.column

/-- The number of tokens that no later piece can change: from the first possible key on, what stands in front
of it is not known yet. -/
def settled (l : Layout) : Nat :=
  (l.possible.filter fun k => !isStale l.cursor k).foldl (fun n k => min n k.place) l.count

/-- No further piece can be read: the tokens end where they are settled. -/
def stop (f : Fault) (l : Layout) : List Token := .bad f :: l.tokens.drop (l.count - l.settled)

/-- The next piece is added, and what follows it is looked at; or there is none and all tokens are given, the last
one first. -/
def step (l : Layout) : Except Fault (Layout ⊕ List Token) := do
  let l ← l.approach
  if l.cursor.rest.isEmpty then
    let l ← l.leaveDocument
    return .inr (.streamEnd :: l.tokens)
  else
    let l ← l.addNext
    l.cursor.look
    return .inl l

/-- All tokens of the text, the last one first. -/
def run : Nat → Layout → List Token
  | 0, l => l.stop .yaml
  | fuel + 1, l =>
    match l.step with
    | .error f => l.stop f
    | .ok (.inr tokens) => tokens
    | .ok (.inl l) => run fuel l

end Layout

/-- The tokens of a text. They end with the end of the stream, or with a fault. -/
def tokensOf (s : Input) : List Token := ((Layout.start s).run (s.text.length + 1)).reverse

end ZincModel.Yaml
