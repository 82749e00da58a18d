import ZincModel.Sorting.Merge

/-!
# Sorting by runs

A row is cut into runs, parts that ascend already; parts that descend are reversed, and short ones are filled up
by entering the elements that follow. Runs are merged as soon as the place where two of them meet is known to be
less central than the next one.

Elements keep their order where none is before the other. The comparison can fail; then the sorting fails, at the
first pair of elements that is compared in vain. Which pairs are compared is part of what is said here.
-/

namespace ZincModel.Sorting

variable {ε β : Type} (before : β → β → Except ε Bool)

/-! ## Runs -/

/-- The least length of a run in a row of so many elements: between 32 and 64, such that the number of runs is a
power of two or a little less. -/
def leastRun (n : Nat) : Nat := go n 0 n
where
  go : Nat → Nat → Nat → Nat
    | 0, odd, n => n + odd
    | fuel + 1, odd, n => if n < 64 then n + odd else go fuel (max odd (n % 2)) (n / 2)

/-- Takes elements as long as each one is before the one taken last (or, if `down` is false, is not); returns
those taken, the last one first, and the rest. -/
def takeRun (down : Bool) (last : β) (taken : List β) : List β → Except ε (List β × List β)
  | [] => .ok (last :: taken, [])
  | x :: rest => do
    if (← before x last) == down then takeRun down x (last :: taken) rest
    else return (last :: taken, x :: rest)

/-- The run at the start of a row, in ascending order, and the rest of the row. -/
def firstRun : List β → Except ε (List β × List β)
  | [] => .ok ([], [])
  | [x] => .ok ([x], [])
  | x :: y :: rest => do
    let down ← before y x
    let (run, rest) ← takeRun before down y [x] rest
    return (if down then run else run.reverse, rest)

/-- Enters elements one after the other into a run, each behind those that it is not before. -/
def enterAll (run : Array β) : List β → Except ε (Array β)
  | [] => .ok run
  | x :: rest => do
    let place ← halve (fun y => before x y) (.ofArray run) (run.size + 1) 0 run.size
    enterAll (run.insertIdxIfInBounds place x) rest

/-! ## The merging of runs -/

/-- A run that waits to be merged with the one behind it. -/
structure Run (β : Type) where
  start : Nat
  elements : Array β
  /-- How often the row is halved until the cut lies between the middles of this run and of the next one. -/
  power : Nat := 0

/-- How often a row of `n` elements is halved until a cut lies between the middles of two runs that follow each
other; `a` and `b` are twice the places of these. -/
def powerOf (n : Nat) : Nat → Nat → Nat → Nat
  | 0, _, _ => 0
  | fuel + 1, a, b =>
    if n ≤ a then 1 + powerOf n fuel (2 * (a - n)) (2 * (b - n))
    else if n ≤ b then 1
    else 1 + powerOf n fuel (2 * a) (2 * b)

/-- The runs so far, the last one first, and how often a row must win to be searched in. -/
structure Pending (β : Type) where
  runs : List (Run β)
  often : Nat

/-- Merges a run with the one in front of it. -/
def mergeRuns (often : Nat) (front back : Run β) : Except ε (Run β × Nat) := do
  let (elements, often) ← merge before often front.elements back.elements
  return ({ front with elements := elements.toArray }, often)

/-- Merges the last run with those in front of it as long as their cuts are less central than one of `power`. -/
def settle (power : Nat) (last : Run β) : List (Run β) → Nat → Except ε (Pending β)
  | [], often => .ok ⟨[{ last with power := power }], often⟩
  | front :: rest, often =>
    if power < front.power then do
      let (merged, often) ← mergeRuns before often front last
      settle power merged rest often
    else .ok ⟨{ last with power := power } :: front :: rest, often⟩

/-- Adds a run behind the others in a row of `n` elements. -/
def Pending.push (n : Nat) (run : Run β) (p : Pending β) : Except ε (Pending β) :=
  match p.runs with
  | [] => .ok { p with runs := [run] }
  | last :: rest => do
    let a := 2 * last.start + last.elements.size
    let power := powerOf n (n.log2 + 3) a (a + last.elements.size + run.elements.size)
    let p ← settle before power last rest p.often
    return { p with runs := run :: p.runs }

/-- Merges all runs. -/
def collapse : Nat → List (Run β) → Nat → Except ε (List β)
  | _, [], _ => .ok []
  | _, [run], _ => .ok run.elements.toList
  | 0, runs, _ => .ok (runs.reverse.flatMap fun run => run.elements.toList)
  | fuel + 1, last :: middle :: rest, often =>
    match rest with
    | front :: others =>
      if front.elements.size < last.elements.size then do
        let (merged, often) ← mergeRuns before often front middle
        collapse fuel (last :: merged :: others) often
      else do
        let (merged, often) ← mergeRuns before often middle last
        collapse fuel (merged :: front :: others) often
    | [] => do
      let (merged, often) ← mergeRuns before often middle last
      collapse fuel [merged] often

/-- Cuts a row of `n` elements, of which `start` have been taken, into runs. -/
def takeRuns (n : Nat) : Nat → Nat → List β → Pending β → Except ε (Pending β)
  | 0, _, _, p => .ok p
  | fuel + 1, start, row, p =>
    if row.isEmpty then .ok p
    else do
      let (run, rest) ← firstRun before row
      let missing := leastRun n - run.length
      let elements ← enterAll before run.toArray (rest.take missing)
      let p ← p.push before n ⟨start, elements, 0⟩
      takeRuns n fuel (start + elements.size) (rest.drop missing) p

/-- The elements in ascending order. -/
def sort (row : List β) : Except ε (List β) := do
  let n := row.length
  let p ← takeRuns before n (n + 1) 0 row ⟨[], leastGain⟩
  collapse before (p.runs.length + 1) p.runs p.often

end ZincModel.Sorting
