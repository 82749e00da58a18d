/-!
# Places in sorted rows

Where an element belongs in a row that is sorted. The search starts near a place that is guessed, goes away from
it in growing steps, and halves the last step. Elements that are neither before nor behind the one that is
entered are passed over by `afterEqual` and stopped at by `beforeEqual`.

The comparison can fail, and what it says need not make sense; so it matters which elements are compared, and
these searches say so.
-/

namespace ZincModel.Sorting

variable {ε β : Type}

/-- A part of an array: so many elements from a first one on. -/
structure Slice (β : Type) where
  elements : Array β
  first : Nat
  size : Nat

namespace Slice

/-- The element at a place of the slice. -/
def get? (s : Slice β) (i : Nat) : Option β := if i < s.size then s.elements[s.first + i]? else none

/-- The slice without the first `n` elements. -/
def drop (n : Nat) (s : Slice β) : Slice β := { s with first := s.first + n, size := s.size - n }

/-- The first `n` elements. -/
def take (n : Nat) (s : Slice β) : Slice β := { s with size := min n s.size }

/-- The elements from the first to the last one. -/
def toList (s : Slice β) : List β := (s.elements.extract s.first (s.first + s.size)).toList

/-- A whole array. -/
def ofArray (elements : Array β) : Slice β := ⟨elements, 0, elements.size⟩

end Slice

/-- The least place from `low` on, below `high`, whose element has the property, or `high`, found by halving: once
an element has it those behind it are taken to have it too. -/
def halve (property : β → Except ε Bool) (s : Slice β) : Nat → Nat → Nat → Except ε Nat
  | 0, low, _ => .ok low
  | fuel + 1, low, high =>
    if low < high then
      let middle := low + (high - low) / 2
      match s.get? middle with
      | none => .ok low
      | some x => do
        if ← property x then halve property s fuel low middle else halve property s fuel (middle + 1) high
    else .ok low

/-- Goes away from a place in steps of 1, 3, 7 and so on, at most `limit` far, as long as the elements there have
the property; returns the last two distances. -/
def stride (property : β → Except ε Bool) (element : Nat → Option β) (limit : Nat) :
    Nat → Nat → Nat → Except ε (Nat × Nat)
  | 0, last, distance => .ok (last, min distance limit)
  | fuel + 1, last, distance =>
    if distance < limit then
      match element distance with
      | none => .ok (last, min distance limit)
      | some x => do
        if ← property x then stride property element limit fuel distance (2 * distance + 1)
        else return (last, distance)
    else .ok (last, min distance limit)

/-- The place of the first element with the property, where the search starts at `hint`. -/
def gallop (property : β → Except ε Bool) (s : Slice β) (hint : Nat) : Except ε Nat :=
  match s.get? hint with
  | none => .ok s.size
  | some x => do
    if ← property x then
      let (last, distance) ← stride property (fun d => s.get? (hint - d)) (hint + 1) (hint + 2) 0 1
      halve property s (s.size + 1) (hint + 1 - distance) (hint - last)
    else
      let absent (y : β) : Except ε Bool := (property y).map (!·)
      let (last, distance) ← stride absent (fun d => s.get? (hint + d)) (s.size - hint) (s.size + 1) 0 1
      halve property s (s.size + 1) (hint + last + 1) (hint + distance)

variable (before : β → β → Except ε Bool)

/-- The place behind all elements that `x` is not before. -/
def afterEqual (x : β) (s : Slice β) (hint : Nat) : Except ε Nat := gallop (fun y => before x y) s hint

/-- The place in front of all elements that are not before `x`. -/
def beforeEqual (x : β) (s : Slice β) (hint : Nat) : Except ε Nat :=
  gallop (fun y => (before y x).map (!·)) s hint

end ZincModel.Sorting
