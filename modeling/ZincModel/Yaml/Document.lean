import ZincModel.Yaml.Graph
import ZincModel.Yaml.Layout
import ZincModel.Yaml.Resolution

/-!
# From tokens to a document

The nodes of a document are put into a table in the order in which they start; the functions that read a node
return its place there. A node without a tag, or with the tag `!`, has the kind that its text or its form says.
Where an anchor is referred to, the place of the node with the anchor stands once more, also inside of that node.

Each function takes the tokens that are left and returns those that are left then. A value that is left out
is an empty plain text.
-/

namespace ZincModel.Yaml

/-- How far the reading of nodes has come. -/
structure Reading where
  tokens : List Token
  /-- The places of the nodes with anchors, the last one first. -/
  anchors : List (List Char × Nat)
  graph : Graph

/-- The fault of meeting these tokens where something else is expected. -/
def unexpected : List Token → Fault
  | .bad f :: _ => f
  | _ => .yaml

/-- What tag handles stand for. -/
abbrev Handles := List (List Char × List Char)

/-- What the common tag handles stand for. -/
def commonHandles : Handles := [(['!'], ['!']), (['!', '!'], Tag.stem)]

/-- The anchor and the tag in front of a node. -/
structure Properties where
  anchor : Option (List Char)
  tag : Option (Option (List Char) × List Char)

/-- The properties at the start of the tokens, in either order. Behind a tag that comes first the next token is
looked at. -/
def takeProperties : List Token → Except Fault (Properties × List Token)
  | .anchor a :: .tag h n :: rest => .ok (⟨some a, some (h, n)⟩, rest)
  | .tag h n :: .anchor a :: rest => .ok (⟨some a, some (h, n)⟩, rest)
  | .anchor a :: rest => .ok (⟨some a, none⟩, rest)
  | .tag _ _ :: .bad f :: _ => .error f
  | .tag h n :: rest => .ok (⟨none, some (h, n)⟩, rest)
  | tokens => .ok (⟨none, none⟩, tokens)

/-- The full name of a tag; a fault if its handle stands for nothing. -/
def fullName (handles : Handles) : Option (List Char) × List Char → Except Fault (List Char)
  | (none, name) => .ok name
  | (some handle, name) =>
    match handles.lookup handle with
    | some meaning => .ok (meaning ++ name)
    | none => .error .yaml

/-- The full name of the tag among the properties, if there is one. -/
def Properties.tagName (p : Properties) (handles : Handles) : Except Fault (Option (List Char)) :=
  match p.tag with
  | some t => (fullName handles t).map some
  | none => .ok none

/-- What a full name says about the kind of a node. -/
def explicitTag : Option (List Char) → Option Tag
  | some name => if name = ['!'] then none else some (Tag.ofName name)
  | none => none

namespace Reading

/-- Adds a node, which stands in front of the tokens `rest`. -/
def add (r : Reading) (node : Node) (rest : List Token) : Nat × Reading :=
  (r.graph.size, { r with tokens := rest, graph := r.graph.add node })

/-- A value that is left out, in front of the tokens `rest`. -/
def leftOut (r : Reading) (rest : List Token) : Nat × Reading := r.add (.scalar .null []) rest

/-- The anchor stands for a node already. -/
def isTaken (anchor : Option (List Char)) (r : Reading) : Bool :=
  anchor.any fun a => (r.anchors.lookup a).isSome

/-- Adds a node behind its anchor. What it holds may still be unknown. -/
def start (r : Reading) (anchor : Option (List Char)) (node : Node) (rest : List Token) :
    Except Fault (Nat × Reading) :=
  if r.isTaken anchor then .error .yaml
  else
    let (n, r) := r.add node rest
    match anchor with
    | some a => .ok (n, { r with anchors := (a, n) :: r.anchors })
    | none => .ok (n, r)

/-- The node that has been started at a place is complete. -/
def complete (r : Reading) (n : Nat) (node : Node) : Nat × Reading := (n, { r with graph := r.graph.put n node })

end Reading

/-- The tokens do not go on with a node as the value or item of a block. -/
def endsBlockPart : List Token → Bool
  | .item :: _ => true
  | .key :: _ => true
  | .value :: _ => true
  | .blockEnd :: _ => true
  | _ => false

/-- The tokens do not go on with a node as the item of an indented sequence. -/
def endsItem : List Token → Bool
  | .item :: _ => true
  | .blockEnd :: _ => true
  | _ => false

/-- The tokens do not go on with a node as the key or value of an entry in a block. -/
def endsEntryPart : List Token → Bool
  | .key :: _ => true
  | .value :: _ => true
  | .blockEnd :: _ => true
  | _ => false

/-- The tokens do not go on with a node as the key of an entry between brackets. -/
def endsFlowKey : List Token → Bool
  | .value :: _ => true
  | .comma :: _ => true
  | .flowSequenceEnd :: _ => true
  | .flowMappingEnd :: _ => true
  | _ => false

mutual

/-- The node at the start of the tokens. Blocks are nodes only if `inBlock`, and items without a token that
starts their sequence only if `indentless`. -/
def readNode (handles : Handles) (inBlock indentless : Bool) : Nat → Reading → Except Fault (Nat × Reading)
  | 0, r => .error (unexpected r.tokens)
  | fuel + 1, r =>
    match r.tokens with
    | .alias name :: rest =>
      match r.anchors.lookup name with
      | some n => .ok (n, { r with tokens := rest })
      | none => .error .yaml
    | tokens => do
      let (properties, tokens) ← takeProperties tokens
      let name ← properties.tagName handles
      let explicit := explicitTag name
      let anchor := properties.anchor
      let sequence (rest : List Token) (read : Reading → Except Fault (List Nat × Reading)) :
          Except Fault (Nat × Reading) := do
        let tag := explicit.getD .seq
        let (n, r) ← r.start anchor (.sequence tag []) rest
        let (items, r) ← read r
        return r.complete n (.sequence tag items)
      let mapping (rest : List Token) (read : Reading → Except Fault (List (Nat × Nat) × Reading)) :
          Except Fault (Nat × Reading) := do
        let tag := explicit.getD .map
        let (n, r) ← r.start anchor (.mapping tag []) rest
        let (entries, r) ← read r
        return r.complete n (.mapping tag entries)
      let empty (_ : Unit) : Except Fault (Nat × Reading) :=
        if anchor.isSome || name.isSome then r.start anchor (.scalar (explicit.getD .null) []) tokens
        else .error .yaml
      match tokens with
      | .scalar isPlain text :: rest =>
        let implied := if isPlain || name.isSome then tagOfPlain text else .str
        r.start anchor (.scalar (explicit.getD implied) text) rest
      | .flowSequence :: rest => sequence rest (readFlowItems handles true fuel)
      | .flowMapping :: rest => mapping rest (readFlowEntries handles true fuel)
      | .item :: _ => if indentless then sequence tokens (readItems handles true fuel) else empty ()
      | .blockSequence :: rest => if inBlock then sequence rest (readItems handles false fuel) else empty ()
      | .blockMapping :: rest => if inBlock then mapping rest (readEntries handles fuel) else empty ()
      | .bad f :: _ => .error f
      | _ => empty ()

/-- The items of a sequence in a block, up to its end. An indentless one ends with its last item. -/
def readItems (handles : Handles) (indentless : Bool) : Nat → Reading → Except Fault (List Nat × Reading)
  | 0, r => .error (unexpected r.tokens)
  | fuel + 1, r =>
    match r.tokens with
    | .item :: rest => do
      let isLeftOut := if indentless then endsBlockPart rest else endsItem rest
      let (n, r) ←
        if isLeftOut then pure (r.leftOut rest) else readNode handles true false fuel { r with tokens := rest }
      let (more, r) ← readItems handles indentless fuel r
      return (n :: more, r)
    | .blockEnd :: rest => .ok ([], if indentless then r else { r with tokens := rest })
    | tokens => if indentless then .ok ([], r) else .error (unexpected tokens)

/-- The entries of a mapping in a block, up to its end. -/
def readEntries (handles : Handles) : Nat → Reading → Except Fault (List (Nat × Nat) × Reading)
  | 0, r => .error (unexpected r.tokens)
  | fuel + 1, r =>
    match r.tokens with
    | .key :: rest => do
      let (k, r) ←
        if endsEntryPart rest then pure (r.leftOut rest)
        else readNode handles true true fuel { r with tokens := rest }
      let (v, r) ← readEntryValue handles fuel r
      let (more, r) ← readEntries handles fuel r
      return ((k, v) :: more, r)
    | .blockEnd :: rest => .ok ([], { r with tokens := rest })
    | tokens => .error (unexpected tokens)

/-- The value of an entry in a block. -/
def readEntryValue (handles : Handles) : Nat → Reading → Except Fault (Nat × Reading)
  | 0, r => .error (unexpected r.tokens)
  | fuel + 1, r =>
    match r.tokens with
    | .value :: rest =>
      if endsEntryPart rest then .ok (r.leftOut rest)
      else readNode handles true true fuel { r with tokens := rest }
    | tokens => .ok (r.leftOut tokens)

/-- The items of a sequence between brackets, up to the closing one; behind the first one each follows a
comma. An item can be a single entry, which is a mapping then. -/
def readFlowItems (handles : Handles) (isFirst : Bool) : Nat → Reading → Except Fault (List Nat × Reading)
  | 0, r => .error (unexpected r.tokens)
  | fuel + 1, r =>
    match r.tokens with
    | .flowSequenceEnd :: rest => .ok ([], { r with tokens := rest })
    | tokens => do
      let tokens ←
        if isFirst then pure tokens
        else
          match tokens with
          | .comma :: rest => pure rest
          | tokens => throw (unexpected tokens)
      match tokens with
      | .flowSequenceEnd :: rest => return ([], { r with tokens := rest })
      | .key :: rest =>
        let (n, r) := r.add (.mapping .map []) rest
        let (k, r) ←
          if endsFlowKey rest then pure (r.leftOut rest) else readNode handles false false fuel r
        let (v, r) ← readFlowValue handles fuel r
        let (n, r) := r.complete n (.mapping .map [(k, v)])
        let (more, r) ← readFlowItems handles false fuel r
        return (n :: more, r)
      | tokens =>
        let (n, r) ← readNode handles false false fuel { r with tokens := tokens }
        let (more, r) ← readFlowItems handles false fuel r
        return (n :: more, r)

/-- The entries of a mapping between braces, up to the closing one; behind the first one each follows a
comma. -/
def readFlowEntries (handles : Handles) (isFirst : Bool) :
    Nat → Reading → Except Fault (List (Nat × Nat) × Reading)
  | 0, r => .error (unexpected r.tokens)
  | fuel + 1, r =>
    match r.tokens with
    | .flowMappingEnd :: rest => .ok ([], { r with tokens := rest })
    | tokens => do
      let tokens ←
        if isFirst then pure tokens
        else
          match tokens with
          | .comma :: rest => pure rest
          | tokens => throw (unexpected tokens)
      match tokens with
      | .flowMappingEnd :: rest => return ([], { r with tokens := rest })
      | .key :: rest =>
        let r := { r with tokens := rest }
        let (k, r) ←
          if endsFlowKey rest then pure (r.leftOut rest) else readNode handles false false fuel r
        let (v, r) ← readFlowValue handles fuel r
        let (more, r) ← readFlowEntries handles false fuel r
        return ((k, v) :: more, r)
      | tokens =>
        let (k, r) ← readNode handles false false fuel { r with tokens := tokens }
        let (v, r) := r.leftOut r.tokens
        let (more, r) ← readFlowEntries handles false fuel r
        return ((k, v) :: more, r)

/-- The value of an entry between brackets. -/
def readFlowValue (handles : Handles) : Nat → Reading → Except Fault (Nat × Reading)
  | 0, r => .error (unexpected r.tokens)
  | fuel + 1, r =>
    match r.tokens with
    | .value :: rest =>
      if endsFlowKey rest then .ok (r.leftOut rest)
      else readNode handles false false fuel { r with tokens := rest }
    | tokens => .ok (r.leftOut tokens)

end

/-! ## Documents -/

/-- The handles that directives declare, and the tokens behind them. -/
def readDirectives (hasVersion : Bool) (handles : Handles) : List Token → Except Fault (Handles × List Token)
  | .version major :: rest =>
    if hasVersion || major ≠ 1 then .error .yaml else readDirectives true handles rest
  | .handle name meaning :: rest =>
    if (handles.lookup name).isSome then .error .yaml
    else readDirectives hasVersion ((name, meaning) :: handles) rest
  | .remark :: rest => readDirectives hasVersion handles rest
  | tokens => .ok (handles, tokens)

/-- The tokens behind marks of the end of a document. -/
def dropDocumentEnds : List Token → List Token
  | .documentEnd :: rest => dropDocumentEnds rest
  | tokens => tokens

/-- A document: its nodes, and the place of the one that the others are part of. -/
structure Document where
  graph : Graph
  root : Nat

/-- A document from behind its start on, and the tokens that follow it. -/
def readContent (handles : Handles) (isExplicit : Bool) (tokens : List Token) :
    Except Fault (Document × List Token) := do
  let r : Reading := ⟨tokens, [], .empty⟩
  let isLeftOut :=
    match tokens with
    | .version _ :: _ => true
    | .handle .. :: _ => true
    | .remark :: _ => true
    | .documentStart :: _ => true
    | .documentEnd :: _ => true
    | .streamEnd :: _ => true
    | _ => false
  let (root, r) ←
    if isExplicit && isLeftOut then pure (r.leftOut tokens)
    else readNode handles true false (3 * tokens.length + 3) r
  return (⟨r.graph, root⟩, r.tokens)

/-- Nothing follows the document but marks of its end; another document is looked at up to its start. -/
def finish (tokens : List Token) : Except Fault Unit :=
  match dropDocumentEnds tokens with
  | .streamEnd :: _ => .ok ()
  | tokens => do
    let (_, tokens) ← readDirectives false [] tokens
    throw (unexpected tokens)

/-- The only document in a row of tokens, if there is one. -/
def readDocument (tokens : List Token) : Except Fault (Option Document) :=
  match tokens with
  | .streamEnd :: _ => .ok none
  | .version _ :: _ => explicit
  | .handle .. :: _ => explicit
  | .remark :: _ => explicit
  | .documentStart :: _ => explicit
  | _ => do
    let (document, tokens) ← readContent commonHandles false tokens
    finish tokens
    return some document
where
  explicit : Except Fault (Option Document) := do
    let (declared, tokens) ← readDirectives false [] tokens
    match tokens with
    | .documentStart :: rest =>
      let (document, tokens) ← readContent (declared ++ commonHandles) true rest
      finish tokens
      return some document
    | tokens => throw (unexpected tokens)

end ZincModel.Yaml
