import ZincModel.Fault
import ZincModel.Value.Basic

/-!
# Equality and order of values

Numbers of all kinds, the two truth values among them as one and zero, are equal and ordered by what they
stand for. Texts and rows of bytes are ordered by their first difference, lists and tuples likewise by the
first items that are not equal, sets by inclusion, dates and moments by time. Other pairs have no order.

A value that is held by a container counts as equal to itself, even if it is a number that is not equal to
itself. Two containers are compared item by item, and where a loop is met the container that it belongs to
is looked into once more.
-/

namespace ZincModel

/-- A number of either kind. -/
inductive Number where
  | whole (n : Int)
  | real (x : Double)

/-- The exact order of two numbers; `none` if one is NaN. -/
def Number.compare? : Number → Number → Option Ordering
  | whole a, whole b => some (compare a b)
  | whole a, real b => (b.compareInt? a).map Ordering.swap
  | real a, whole b => a.compareInt? b
  | real a, real b => a.compare? b

/-- Texts by their first difference. -/
def lessText : List Char → List Char → Bool
  | _, [] => false
  | [], _ :: _ => true
  | a :: as, b :: bs => if a = b then lessText as bs else a.toNat < b.toNat

/-- Rows of bytes by their first difference. -/
def lessBytes : List UInt8 → List UInt8 → Bool
  | _, [] => false
  | [], _ :: _ => true
  | a :: as, b :: bs => if a = b then lessBytes as bs else a < b

/-! ## Places -/

/-- The containers around a value that have numbers, the innermost first. -/
abbrev Around := List (Nat × Value)

/-- A value with the containers around it. -/
structure Place where
  value : Value
  around : Around := []

namespace Around

/-- What is around the content of a container. -/
def enter (label : Option Label) (v : Value) (around : Around) : Around :=
  match label with
  | some l => (l.number, v) :: around
  | none => around

/-- The container with a number, in its place. -/
def find? (n : Nat) : Around → Option Place
  | [] => none
  | (m, v) :: rest => if m = n then some ⟨v, rest⟩ else find? n rest

end Around

namespace Value

/-- The number that a value is. -/
def asNumber? : Value → Option Number
  | bool b => some (.whole (if b then 1 else 0))
  | int n => some (.whole n)
  | float _ x => some (.real x)
  | _ => none

/-- The two values are numbers and equal. -/
def equalNumbers (a b : Value) : Bool :=
  match a.asNumber?, b.asNumber? with
  | some x, some y => x.compare? y == some .eq
  | _, _ => false

/-! ## Equality -/

section Equality

variable (again : Place → Place → Bool)

mutual

/-- The two values, held by containers, are equal or one. Where a loop is met `again` compares the container that
it belongs to. -/
def equalIn (ea eb : Around) : Value → Value → Bool
  | loop m isDict, b =>
    isOne (loop m isDict) b ||
      match ea.find? m with
      | some p => again p ⟨b, eb⟩
      | none => false
  | a, loop n isDict =>
    isOne a (loop n isDict) ||
      match eb.find? n with
      | some p => again ⟨a, ea⟩ p
      | none => false
  | null, null => true
  | str a, str b => a == b
  | bytes a, bytes b => a == b
  | date _ a, date _ b => a == b
  | moment _ a, moment _ b => a.compare? b == some .eq
  | list l a, list m b =>
    isOne (list l a) (list m b) || equalAll (ea.enter l (list l a)) (eb.enter m (list m b)) a b
  | tuple l a, tuple m b =>
    isOne (tuple l a) (tuple m b) || equalAll (ea.enter l (tuple l a)) (eb.enter m (tuple m b)) a b
  | set l a, set m b => isOne (set l a) (set m b) || (a.length == b.length && allIn ea eb a b)
  | dict l a, dict m b =>
    isOne (dict l a) (dict m b) ||
      (a.length == b.length && entriesIn (ea.enter l (dict l a)) (eb.enter m (dict m b)) a b)
  | a, b => isOne a b || equalNumbers a b
termination_by structural x => x

/-- The items are equal one by one. -/
def equalAll (ea eb : Around) : List Value → List Value → Bool
  | [], [] => true
  | a :: as, b :: bs => equalIn ea eb a b && equalAll ea eb as bs
  | _, _ => false
termination_by structural x => x

/-- Every item is equal to one of `others`. -/
def allIn (ea eb : Around) : List Value → List Value → Bool
  | [], _ => true
  | a :: as, others => others.any (fun b => equalIn ea eb a b) && allIn ea eb as others
termination_by structural x => x

/-- Every entry is equal to one of `others`. -/
def entriesIn (ea eb : Around) : List (Value × Value) → List (Value × Value) → Bool
  | [], _ => true
  | (k, a) :: as, others =>
    others.any (fun e => equalIn ea eb k e.1 && equalIn ea eb a e.2) && entriesIn ea eb as others
termination_by structural x => x

end

end Equality

/-- How many loops a comparison follows, one inside the other. -/
def loopLimit : Nat := 1000

/-- The values at two places are equal or one; at most as many loops are followed. -/
def equalAt : Nat → Place → Place → Bool
  | 0, _, _ => false
  | loops + 1, p, q => equalIn (equalAt loops) p.around q.around p.value q.value

/-- The two values, held by containers, are equal or one. -/
def equal (a b : Value) : Bool :=
  match a, b with
  | str a, str b => a == b
  | int a, int b => a == b
  | a, b => equalAt loopLimit ⟨a, []⟩ ⟨b, []⟩

/-- Enters a value under a key: in the place of the entry with this key, which keeps its key, or at the end. -/
def insert {α : Type} (key : Value) (value : α) : List (Value × α) → List (Value × α)
  | [] => [(key, value)]
  | (k, v) :: rest => if equal k key then (k, value) :: rest else (k, v) :: insert key value rest

/-- The entries of a dictionary into which pairs are entered one after the other. -/
def entriesOf {α : Type} (pairs : List (Value × α)) : List (Value × α) :=
  pairs.foldl (fun entries p => insert p.1 p.2 entries) []

/-! ## Order -/

/-- The fault of comparing values that have no order. -/
def unorderedFault (a b : Value) : ShapeFault := .unordered a.fullKind b.fullKind

/-- The order of two numbers; a fault if one of the values is no number. -/
def lessNumber (a b : Value) : Except ShapeFault Bool :=
  match a.asNumber?, b.asNumber? with
  | some x, some y => .ok (x.compare? y == some .lt)
  | _, _ => .error (unorderedFault a b)

section Order

variable (again : Place → Place → Bool) (againLess : Place → Place → Except ShapeFault Bool)

mutual

/-- The first value comes before the second one in their order. Where a loop is met `again` and `againLess`
compare the container that it belongs to. -/
def lessIn (ea eb : Around) : Value → Value → Except ShapeFault Bool
  | loop m isDict, b =>
    match ea.find? m with
    | some p => againLess p ⟨b, eb⟩
    | none => .error (unorderedFault (loop m isDict) b)
  | a, loop n isDict =>
    match eb.find? n with
    | some p => againLess ⟨a, ea⟩ p
    | none => .error (unorderedFault a (loop n isDict))
  | str a, str b => .ok (lessText a.toList b.toList)
  | bytes a, bytes b => .ok (lessBytes a b)
  | date _ a, date _ b => .ok (a.ordinal < b.ordinal)
  | date .., moment .. => .error .mixedDates
  | moment .., date .. => .error .mixedDates
  | moment _ a, moment _ b =>
    match a.compare? b with
    | some o => .ok (o == .lt)
    | none => .error .mixedOffsets
  | list l a, list m b => lessAll (ea.enter l (list l a)) (eb.enter m (list m b)) a b
  | tuple l a, tuple m b => lessAll (ea.enter l (tuple l a)) (eb.enter m (tuple m b)) a b
  | set _ a, set _ b => .ok (a.length < b.length && allIn again ea eb a b)
  | a, b => lessNumber a b
termination_by structural x => x

/-- Lists by the first items that are not equal, else by their length. -/
def lessAll (ea eb : Around) : List Value → List Value → Except ShapeFault Bool
  | _, [] => .ok false
  | [], _ :: _ => .ok true
  | a :: as, b :: bs => if equalIn again ea eb a b then lessAll ea eb as bs else lessIn ea eb a b
termination_by structural x => x

end

end Order

/-- The value at the first place comes before the one at the second place; at most as many loops are followed. -/
def lessAt : Nat → Place → Place → Except ShapeFault Bool
  | 0, p, q => .error (unorderedFault p.value q.value)
  | loops + 1, p, q => lessIn (equalAt loops) (lessAt loops) p.around q.around p.value q.value

/-- The first value comes before the second one in their order. -/
def less (a b : Value) : Except ShapeFault Bool := lessAt loopLimit ⟨a, []⟩ ⟨b, []⟩

end Value

end ZincModel
