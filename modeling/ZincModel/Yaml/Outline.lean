import ZincModel.Text.Line
import ZincModel.Value.Display
import ZincModel.Yaml.Base64
import ZincModel.Yaml.Tag

/-!
# Values as they are written

The outline of a value is the tree that its text shows. Tuples are sequences like lists, a set is a mapping with
null for every item, and bytes are a text in base 64. A list, tuple, set, dictionary or date that has a number
stands in full where it is met first, and at all other places there is an alias.
-/

namespace ZincModel.Yaml

/-- A part of a document that is to be written. -/
inductive Outline where
  | scalar (number : Option Nat) (tag : Tag) (text : List Char)
  | sequence (number : Option Nat) (tag : Tag) (items : List Outline)
  | mapping (number : Option Nat) (tag : Tag) (entries : List (Outline × Outline))
  | alias (number : Nat)
  deriving Inhabited

/-- The text of a number, always with a point. -/
def floatText : Double → List Char
  | .nan => ".nan".toList
  | .infinite negative => (if negative then ['-'] else []) ++ ".inf".toList
  | x =>
    let s := x.text
    if s.contains '.' then s
    else
      match s.span (· != 'e') with
      | (digits, []) => digits
      | (digits, exponent) => digits ++ '.' :: '0' :: exponent

/-- The text of a row of bytes, line by line. -/
def binaryText (bytes : List UInt8) : List Char := (Base64.lines bytes).flatMap (· ++ ['\n'])

/-- The numbers of the values that have been met. -/
abbrev Met := List Nat

/-- The outline of a value: an alias if a value with its number has been met, and else what `whole` makes of
it. -/
def Outline.once (number : Option Nat) (whole : Met → Except Fault (Outline × Met)) (met : Met) :
    Except Fault (Outline × Met) :=
  match number with
  | none => whole met
  | some n => if met.contains n then .ok (.alias n, met) else whole (n :: met)

/-- The outline of a value that holds no others. -/
def Outline.ofText (tag : Tag) (text : List Char) : Outline := .scalar none tag text

/-- Null, which stands under the items of a set. -/
def Outline.null : Outline := .ofText .null "null".toList

/-- The number that counts for the aliases of a container; the empty tuple has none. -/
def aliasNumber (label : Option Label) (isEmptyTuple : Bool) : Option Nat :=
  if isEmptyTuple then none else label.map Label.number

mutual

/-- The outline of a value, behind those that have been met. -/
def Outline.of : Value → Met → Except Fault (Outline × Met)
  | .null, met => .ok (.null, met)
  | .bool b, met => .ok (.ofText .bool (if b then "true".toList else "false".toList), met)
  | .int n, met => (Integer.text n).map fun s => (.ofText .int s, met)
  | .float _ x, met => .ok (.ofText .float (floatText x), met)
  | .str s, met => .ok (.ofText .str s.toList, met)
  | .bytes bs, met => .ok (.ofText .binary (binaryText bs), met)
  | .date n d, met => Outline.once n (fun met => .ok (.scalar n .timestamp d.iso, met)) met
  | .moment n m, met => Outline.once n (fun met => .ok (.scalar n .timestamp (m.iso ' '), met)) met
  | .list l items, met =>
    let n := aliasNumber l false
    Outline.once n (fun met => (outlinesOf items met).map fun r => (.sequence n .seq r.1, r.2)) met
  | .tuple l items, met =>
    let n := aliasNumber l items.isEmpty
    Outline.once n (fun met => (outlinesOf items met).map fun r => (.sequence n .seq r.1, r.2)) met
  | .set l items, met =>
    let n := aliasNumber l false
    Outline.once n
      (fun met => (outlinesOf items met).map fun r => (.mapping n .set (r.1.map (·, .null)), r.2)) met
  | .dict l entries, met =>
    let n := aliasNumber l false
    Outline.once n (fun met => (entryOutlinesOf entries met).map fun r => (.mapping n .map r.1, r.2)) met
  | .loop n _, met => .ok (.alias n, met)
termination_by structural x => x

/-- The outlines of a row of values. -/
def outlinesOf : List Value → Met → Except Fault (List Outline × Met)
  | [], met => .ok ([], met)
  | v :: rest, met => do
    let (o, met) ← Outline.of v met
    let (os, met) ← outlinesOf rest met
    return (o :: os, met)
termination_by structural x => x

/-- The outlines of the entries of a dictionary. -/
def entryOutlinesOf : List (Value × Value) → Met → Except Fault (List (Outline × Outline) × Met)
  | [], met => .ok ([], met)
  | (k, v) :: rest, met => do
    let (key, met) ← Outline.of k met
    let (value, met) ← Outline.of v met
    let (os, met) ← entryOutlinesOf rest met
    return ((key, value) :: os, met)
termination_by structural x => x

end

/-- The outline of a value. -/
def Outline.ofValue (v : Value) : Except Fault Outline := (Outline.of v []).map (·.1)

/-! ## Anchors -/

mutual

/-- The numbers of which aliases stand in an outline, in their order, behind the others. -/
def Outline.aliased : Outline → List Nat → List Nat
  | .scalar .., ns => ns
  | .sequence _ _ items, ns => aliasedAll items ns
  | .mapping _ _ entries, ns => aliasedEntries entries ns
  | .alias n, ns => if ns.contains n then ns else ns ++ [n]
termination_by structural x => x

def aliasedAll : List Outline → List Nat → List Nat
  | [], ns => ns
  | o :: rest, ns => aliasedAll rest (o.aliased ns)
termination_by structural x => x

def aliasedEntries : List (Outline × Outline) → List Nat → List Nat
  | [], ns => ns
  | (k, v) :: rest, ns => aliasedEntries rest (v.aliased (k.aliased ns))
termination_by structural x => x

end

/-- The name of the anchor with a number: `id` and at least three digits. -/
def anchorNumber (n : Nat) : List Char :=
  'i' :: 'd' :: (if n < 1000 then paddedNumeral 3 n else Nat.toDigits 10 n)

/-- The names of anchors, by the numbers of the values they stand in front of. -/
abbrev Anchors := List (Nat × List Char)

/-- The anchors that the aliases in an outline need. -/
def Outline.anchors (o : Outline) : Anchors := (o.aliased []).zipIdx.map fun l => (l.1, anchorNumber (l.2 + 1))

end ZincModel.Yaml
