import ZincModel.Yaml.ScalarText

/-!
# The tokens of YAML

The pieces a YAML text is made of. Besides the marks that stand in the text there are tokens for what its
indentation says: where a block starts and ends, and where the key of an entry starts. This module has the
readers of the tokens that consist of several characters: directives, names of anchors, and tags.
-/

namespace ZincModel.Yaml

open Text

/-- A piece of a YAML text. -/
inductive Token where
  | version (major : Nat)
  | handle (name meaning : List Char)
  | remark
  | documentStart
  | documentEnd
  | streamEnd
  | blockSequence
  | blockMapping
  | blockEnd
  | flowSequence
  | flowSequenceEnd
  | flowMapping
  | flowMappingEnd
  | item
  | comma
  | key
  | value
  | alias (name : List Char)
  | anchor (name : List Char)
  | tag (handle : Option (List Char)) (name : List Char)
  | scalar (isPlain : Bool) (text : List Char)
  /-- No further piece can be read. -/
  | bad (fault : Fault)
  deriving DecidableEq

/-! ## Names of anchors -/

/-- A name ends in front of this. -/
def endsName : List Char → Bool
  | [] => true
  | c :: _ =>
    isGap c || c == '?' || c == ':' || c == ',' || c == ']' || c == '\x7d' || c == '%' || c == '@' || c == '\x60'

/-- The name of an anchor from behind its indicator on. -/
def anchorName (c : Cursor) : Except Fault (List Char × Cursor) :=
  let (name, c) := c.takeWhile isWord
  if name.isEmpty || !endsName c.rest then .error c.unexpected else .ok (name, c)

/-! ## Tags -/

/-- The character may stand in the name of a tag. -/
def isTagChar (c : Char) : Bool := isWord c || ";/?:@&=+$,.!~*'()[]%".toList.contains c

/-- The bytes of a row of escapes, each a percent sign and two hexadecimal digits. -/
def escapedBytes : Nat → Cursor → Except Fault (List UInt8 × Cursor)
  | 0, c => .ok ([], c)
  | fuel + 1, c =>
    match c.rest with
    | '%' :: _ => do
      let (n, c) ← c.next.hexNumber 2
      let (bytes, c) ← escapedBytes fuel c
      return (UInt8.ofNat n :: bytes, c)
    | _ => .ok ([], c)

/-- The name of a tag at a place, possibly empty. -/
def tagNameFrom : Nat → Cursor → Except Fault (List Char × Cursor)
  | 0, c => .ok ([], c)
  | fuel + 1, c =>
    match c.rest with
    | [] => .ok ([], c)
    | x :: _ =>
      if x == '%' then do
        let (bytes, c) ← escapedBytes c.bound c
        match Utf8.decode bytes with
        | .error _ => throw .yaml
        | .ok text => do
          let (more, c) ← tagNameFrom fuel c
          return (text ++ more, c)
      else if isTagChar x then (tagNameFrom fuel c.next).map fun r => (x :: r.1, r.2)
      else .ok ([], c)

/-- The name of a tag at a place. -/
def tagName (c : Cursor) : Except Fault (List Char × Cursor) := do
  let (name, after) ← tagNameFrom c.bound c
  if after.index = c.index then throw after.unexpected else return (name, after)

/-- The handle of a tag at a place: an exclamation mark in front of a space, or two of them with a word or
nothing in between. -/
def tagHandle (c : Cursor) : Except Fault (List Char × Cursor) :=
  match c.rest with
  | '!' :: ' ' :: _ => .ok (['!'], c.next)
  | '!' :: _ =>
    let (word, c) := c.next.takeWhile isWord
    if c.rest.head? = some '!' then .ok ('!' :: word ++ ['!'], c.next) else .error c.unexpected
  | _ => .error c.unexpected

/-- A second exclamation mark comes before the next blank. -/
def hasHandle (s : List Char) : Bool :=
  (s.takeWhile fun c => !(c == ' ' || isBreak c)).contains '!'

/-- The tag that starts at a place. -/
def tagAt (c : Cursor) : Except Fault (Token × Cursor) := do
  let (token, c) ←
    match c.rest.drop 1 with
    | '<' :: _ => do
      let (name, c) ← tagName (c.advance 2)
      if c.rest.head? = some '>' then pure (Token.tag none name, c.next) else throw c.unexpected
    | rest =>
      if atGap rest then pure (Token.tag none ['!'], c.next)
      else do
        let (handle, c) ← if hasHandle rest then tagHandle c else pure (['!'], c.next)
        let (name, c) ← tagName c
        pure (Token.tag (some handle) name, c)
  if atSpace c.rest then return (token, c) else throw .yaml

/-! ## Directives -/

/-- A number of a version. -/
def versionNumber (c : Cursor) : Except Fault (Nat × Cursor) := do
  let (digits, c) := c.takeWhile isDigit
  c.look
  if digits.isEmpty then throw .yaml
  else if Integer.digitLimit < digits.length then throw (.content (.integerUnreadable digits.length))
  else return (Nat.ofDigitChars 10 digits 0, c)

/-- The directive from behind its percent sign on, and the place behind its line. -/
def directive (c : Cursor) : Except Fault (Token × Cursor) := do
  let (name, c) := c.takeWhile isWord
  if name.isEmpty || !atSpace c.rest then throw c.unexpected
  let (token, c) ←
    if name = "YAML".toList then do
      let (major, c) ← versionNumber c.skipSpaces
      if c.rest.head? ≠ some '.' then throw c.unexpected
      let (_, c) ← versionNumber c.next
      if atSpace c.rest then pure (Token.version major, c) else throw .yaml
    else if name = "TAG".toList then do
      let (handle, c) ← tagHandle c.skipSpaces
      if c.rest.head? ≠ some ' ' then throw c.unexpected
      let (meaning, c) ← tagName c.skipSpaces
      if atSpace c.rest then pure (Token.handle handle meaning, c) else throw .yaml
    else pure (Token.remark, c.skipWhile (!isBreak ·))
  let c ← c.skipLine
  return (token, c)

end ZincModel.Yaml
