import ZincModel.Yaml.Outline
import ZincModel.Yaml.Style

/-!
# Writing YAML

The text of a value, one item or entry on each line, indented by two columns for each level. A sequence that is
the value of an entry is not indented. A value that occurs more than once is written once, with an anchor, and
referred to at the other places.
-/

namespace ZincModel.Yaml

/-- Where a part of an outline stands in its container. -/
inductive Role where
  | item
  | entry
  /-- A key on the same line as its value. -/
  | key
  deriving DecidableEq

/-- The name of the anchor of the value with a number. -/
def anchorOf (anchors : Anchors) (number : Option Nat) : Option (List Char) :=
  number.bind fun n => anchors.lookup n

/-- Adds the anchor of the value with a number, if it has one. -/
def Sheet.anchor (anchors : Anchors) (number : Option Nat) (p : Sheet) : Sheet :=
  match anchorOf anchors number with
  | some name => p.mark false ('&' :: name)
  | none => p

/-- The key is short and has one line, so that its value can stand behind it. -/
def isShortKey (anchors : Anchors) (o : Outline) : Bool :=
  let isShort (number : Option Nat) (tag : Tag) (size : Nat) : Bool :=
    ((anchorOf anchors number).getD []).length + tag.short.length + size < 128
  match o with
  | .alias _ => true
  | .scalar number tag text => isShort number tag text.length && !text.isEmpty && !isMultiline text
  | .sequence number tag items => isShort number tag 0 && items.isEmpty
  | .mapping number tag entries => isShort number tag 0 && entries.isEmpty

/-- The column of the content of a node inside of a block at `indent`. -/
def inner (indent : Option Nat) : Nat :=
  match indent with
  | none => 0
  | some n => n + 2

/-- The column in which the lines of a scalar inside of a block at `indent` go on. -/
def scalarIndent (indent : Option Nat) : Nat := indent.getD 0 + 2

mutual

/-- Adds a part of an outline that stands in a block at the column `indent`. -/
def writePart (anchors : Anchors) (role : Role) (indent : Option Nat) : Outline → Sheet → Sheet
  | .alias n, p => p.mark false ('*' :: (anchorOf anchors (some n)).getD [])
  | .scalar number tag text, p =>
    let p := p.anchor anchors number
    let isKey := role == .key
    let style := styleOf isKey tag text
    let p := if isImplied style tag text then p else p.mark false tag.short
    p.scalar style (!isKey) (scalarIndent indent) text
  | .sequence number tag items, p =>
    let p := p.anchor anchors number
    let p := if tag == .seq then p else p.mark false tag.short
    if items.isEmpty then p.mark false ['[', ']']
    else
      let column := if role == .entry && !p.atMargin then indent.getD 0 else inner indent
      writeItems anchors column items p
  | .mapping number tag entries, p =>
    let p := p.anchor anchors number
    let p := if tag == .map then p else p.mark false tag.short
    if entries.isEmpty then p.mark false ['\x7b', '\x7d'] else writeEntries anchors (inner indent) entries p
termination_by structural x => x

/-- Adds the items of a sequence, each in the column `indent`. -/
def writeItems (anchors : Anchors) (indent : Nat) : List Outline → Sheet → Sheet
  | [], p => p
  | o :: rest, p =>
    let p := (p.indentTo indent).mark true ['-']
    writeItems anchors indent rest (writePart anchors .item (some indent) o p)
termination_by structural x => x

/-- Adds the entries of a mapping, each in the column `indent`. -/
def writeEntries (anchors : Anchors) (indent : Nat) : List (Outline × Outline) → Sheet → Sheet
  | [], p => p
  | (k, v) :: rest, p =>
    let p := p.indentTo indent
    let p :=
      if isShortKey anchors k then (writePart anchors .key (some indent) k p).close [':']
      else
        let p := writePart anchors .entry (some indent) k (p.mark true ['?'])
        (p.indentTo indent).mark true [':']
    writeEntries anchors indent rest (writePart anchors .entry (some indent) v p)
termination_by structural x => x

end

/-- The text of a document with an outline. -/
def Outline.write (o : Outline) : List Char :=
  let p := writePart o.anchors .item none o .blank
  (p.indentTo 0).written.reverse

/-- The YAML text of a value. -/
def write (v : Value) : Except Fault (List Char) := (Outline.ofValue v).map Outline.write

end ZincModel.Yaml
