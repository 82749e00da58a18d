import ZincModel.Number.Shortest
import ZincModel.Sorting.Runs
import ZincModel.Text.Line
import ZincModel.Value.Display
import ZincModel.Value.Order

/-!
# Writing JSON

A value on a single line of ASCII. Texts are quoted, with a letter behind a backslash for the common control
characters and the quote, and a number of four hexadecimal digits for all else beyond printable ASCII;
characters beyond U+FFFF take two of them. Tuples are written like lists. Names of entries are texts; numbers,
truth values and null are turned into texts, and other keys are refused, as are other kinds of values. Entries
can be sorted by their keys.
-/

namespace ZincModel.Json

open Text

/-- The two-character form of a character that may not stand for itself. -/
def letter? : Char → Option Char
  | '"' => some '"'
  | '\\' => some '\\'
  | '\n' => some 'n'
  | '\r' => some 'r'
  | '\t' => some 't'
  | '\x0c' => some 'f'
  | '\x08' => some 'b'
  | _ => none

/-- A number of 16 bits behind `\u`. -/
def unitEscape (n : Nat) : List Char := '\\' :: 'u' :: hexDigits false 4 n

/-- A character by its number, in two halves beyond U+FFFF. -/
def charEscape (c : Char) : List Char :=
  if c.toNat < 0x10000 then unitEscape c.toNat
  else
    let n := c.toNat - 0x10000
    unitEscape (0xD800 + n / 0x400) ++ unitEscape (0xDC00 + n % 0x400)

/-- A character inside a quoted text that is all ASCII. -/
def asciiChar (c : Char) : List Char :=
  match letter? c with
  | some l => ['\\', l]
  | none => if 0x20 ≤ c.toNat && c.toNat ≤ 0x7E then [c] else charEscape c

/-- A character inside a quoted text in which only control characters are escaped. -/
def plainChar (c : Char) : List Char :=
  match letter? c with
  | some l => ['\\', l]
  | none => if c.toNat < 0x20 then unitEscape c.toNat else [c]

/-- A text between quotes, all ASCII. -/
def asciiText (s : List Char) : List Char := '"' :: s.flatMap asciiChar ++ ['"']

/-- A text between quotes, with characters beyond ASCII as they are. -/
def plainText (s : List Char) : List Char := '"' :: s.flatMap plainChar ++ ['"']

/-- A number; the ones that are not finite have names. -/
def number : Double → List Char
  | .nan => "NaN".toList
  | .infinite negative => (if negative then ['-'] else []) ++ "Infinity".toList
  | x => x.text

/-- The name under which an entry is written. -/
def nameOf : Value → Except Fault (List Char)
  | .str s => .ok s.toList
  | .float _ x => .ok (number x)
  | .bool b => .ok (if b then "true".toList else "false".toList)
  | .null => .ok "null".toList
  | .int n => Integer.text n
  | v => .error (.shape (.badKey v.fullKind))

/-! ## Sorting entries -/

section Sorting

variable {α : Type}

/-- The entries with their text keys, if all keys are texts. -/
def textEntries? : List (Value × α) → Option (List (List Char × α))
  | [] => some []
  | (.str k, v) :: rest => (textEntries? rest).map ((k.toList, v) :: ·)
  | _ :: _ => none

/-- The entries sorted by their keys. Keys of other kinds than text may have no order; the first two of them that
are compared are complained about then. -/
def sortEntries (entries : List (Value × α)) : Except ShapeFault (List (Value × α)) :=
  match textEntries? entries with
  | some pairs =>
    .ok ((pairs.mergeSort fun p q => !lessText q.1 p.1).map fun p => (.str (String.ofList p.1), p.2))
  | none => Sorting.sort (fun p q => Value.less p.1 q.1) entries

end Sorting

/-! ## Values -/

/-- What writing gives. -/
abbrev Written := Except Fault (List Char)

/-- The texts, if there is no fault; else the first fault. -/
def allWritten : List Written → Except Fault (List (List Char))
  | [] => .ok []
  | w :: rest => do
    let part ← w
    let parts ← allWritten rest
    return part :: parts

mutual

/-- The JSON text of a value inside of the containers whose numbers are on the path, with the entries of every
dictionary sorted by their keys if `sorted`. -/
def writeIn (sorted : Bool) (path : List Nat) : Value → Written
  | .null => .ok "null".toList
  | .bool b => .ok (if b then "true".toList else "false".toList)
  | .int n => Integer.text n
  | .float _ x => .ok (number x)
  | .str s => .ok (asciiText s.toList)
  | .list l items =>
    if Value.isEntered l path then .error (.content .circular)
    else do
      let parts ← allWritten (writeItems sorted (Value.enter l path) items)
      return '[' :: join [',', ' '] parts ++ [']']
  | .tuple l items =>
    if Value.isEntered l path then .error (.content .circular)
    else do
      let parts ← allWritten (writeItems sorted (Value.enter l path) items)
      return '[' :: join [',', ' '] parts ++ [']']
  | .dict l entries =>
    if Value.isEntered l path then .error (.content .circular)
    else
      let entries := writeEntries sorted (Value.enter l path) entries
      match if sorted then sortEntries entries else .ok entries with
      | .error fault => .error (.shape fault)
      | .ok entries => do
        let parts ← allWritten (entries.map (·.2))
        return '{' :: join [',', ' '] parts ++ ['}']
  | .loop .. => .error (.content .circular)
  | v => .error (.shape (.notSerializable v.kind))
termination_by structural x => x

/-- The texts of the items of a list. -/
def writeItems (sorted : Bool) (path : List Nat) : List Value → List Written
  | [] => []
  | v :: rest => writeIn sorted path v :: writeItems sorted path rest
termination_by structural x => x

/-- The texts of the entries of a dictionary, each with its key. -/
def writeEntries (sorted : Bool) (path : List Nat) : List (Value × Value) → List (Value × Written)
  | [] => []
  | (k, v) :: rest =>
    let written : Written := do
      let name ← nameOf k
      let part ← writeIn sorted path v
      return asciiText name ++ ':' :: ' ' :: part
    (k, written) :: writeEntries sorted path rest
termination_by structural x => x

end

/-- The JSON text of a value, with the entries of every dictionary sorted by their keys if `sorted`. -/
def write (sorted : Bool) (v : Value) : Written := writeIn sorted [] v

end ZincModel.Json
