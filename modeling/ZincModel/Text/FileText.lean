import ZincModel.Number.Double
import ZincModel.Text.Line
import ZincModel.Text.Utf8

/-!
# Text files read piece by piece

A text file is read in blocks of bytes and handed out in pieces of characters. What a block leaves of an
unfinished character is put before the next block, and a carriage return at the end of a block waits for the line
feed that may follow. Pieces that come before a malformed place are handed out, unless that place is in a block
which is read for them.
-/

namespace ZincModel.Text

/-- A text file that is being read. -/
structure FileText where
  /-- The bytes that have not been read. -/
  bytes : List UInt8
  /-- The start of a character whose other bytes have not been read. -/
  unfinished : List UInt8 := []
  /-- A carriage return has been read that does not count yet. -/
  afterReturn : Bool := false
  /-- The characters that have been read and not handed out. -/
  ready : List Char := []
  /-- The number of bytes in the last block. -/
  blockBytes : Nat := 0
  /-- The number of characters in the last block. -/
  blockChars : Nat := 0

namespace FileText

/-- The least number of bytes in a block. -/
def leastBlock : Nat := 8192

/-- The bytes that are read to get some characters: as many for each of them as in the last block, but at least
one, and not too few in all. -/
def blockSize (wanted : Nat) (f : FileText) : Nat :=
  if f.blockChars = 0 ∨ f.blockBytes < f.blockChars then max leastBlock wanted
  else
    let share := Double.ofRatio false f.blockBytes f.blockChars
    max leastBlock (share.mul (Double.ofRatio false wanted 1)).wholePart

/-- Reads the next block. Its end is the end of the file if it is empty. -/
def readBlock (wanted : Nat) (f : FileText) : Except Utf8.Malformed FileText := do
  let size := f.blockSize wanted
  let block := f.bytes.take size
  let isLast := block.isEmpty
  let bytes := f.unfinished ++ block
  let (cs, unfinished) ←
    if isLast then (Utf8.decode bytes).map (·, []) else Utf8.charsOfBlock 0 bytes 0 (Utf8.pieces bytes)
  let isResumed := f.afterReturn && (isLast || !cs.isEmpty)
  let cs := if isResumed then '\r' :: cs else cs
  let waits := !isLast && cs.getLast? == some '\r'
  let cs := unifyNewlines (if waits then cs.dropLast else cs)
  return {
    bytes := f.bytes.drop size
    unfinished := unfinished
    afterReturn := waits || (f.afterReturn && !isResumed)
    ready := f.ready ++ cs
    blockBytes := block.length
    blockChars := cs.length }

/-- Reads blocks until `size` characters are there or the file has ended. -/
def prepare (size : Nat) : Nat → FileText → Except Utf8.Malformed FileText
  | 0, f => .ok f
  | fuel + 1, f =>
    if size ≤ f.ready.length then .ok f
    else do
      let g ← f.readBlock (size - f.ready.length)
      if f.bytes.isEmpty && g.blockChars = 0 then return g else prepare size fuel g

/-- The pieces of at most `size` characters that can be handed out, and the malformed place that keeps the next
one from it. -/
def piecesFrom (size : Nat) : Nat → FileText → List (List Char) × Option Utf8.Malformed
  | 0, _ => ([], none)
  | fuel + 1, f =>
    match f.prepare size (f.bytes.length + 2) with
    | .error place => ([], some place)
    | .ok f =>
      if f.ready.isEmpty then ([], none)
      else
        let (more, place) := piecesFrom size fuel { f with ready := f.ready.drop size }
        (f.ready.take size :: more, place)

/-- The pieces of a file with these bytes, and the malformed place that ends them. -/
def pieces (size : Nat) (bytes : List UInt8) : List (List Char) × Option Utf8.Malformed :=
  piecesFrom size (bytes.length + 1) { bytes := bytes }

end FileText

end ZincModel.Text
