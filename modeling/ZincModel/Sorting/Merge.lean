import ZincModel.Sorting.Search

/-!
# Merging two sorted rows

Two rows that stand one behind the other are merged from the front if the first one is the shorter, else from
the back. Elements are taken one by one; when one row has won often in succession, the place is searched up to
which it wins, and so on in turns as long as that pays. How often is often changes from merge to merge.

The comparison need not make sense, so a row can be used up where that cannot be; the elements that are left then
stand at the end, or at the front.
-/

namespace ZincModel.Sorting

variable {ε β : Type} (before : β → β → Except ε Bool)

/-- How many elements a search must win for the searching to go on. -/
def leastGain : Nat := 7

/-- How the next elements are taken: one by one, after so many in succession from each row, or by searching. -/
inductive Pace where
  | single (fromA fromB : Nat)
  | search

/-- The rest of two rows, and what has been taken from them. -/
structure Merging (β : Type) where
  /-- What has been taken: the last one first if it was taken from the front, else the first one first. -/
  taken : List β
  a : Slice β
  b : Slice β

/-- A merged row, and how often a row must win to be searched in. -/
abbrev Merged (β : Type) := List β × Nat

/-! ## From the front -/

namespace Merging

/-- Takes the first elements of the first row. -/
def takeA (n : Nat) (m : Merging β) : Merging β :=
  { m with taken := (m.a.take n).toList.reverse ++ m.taken, a := m.a.drop n }

/-- Takes the first elements of the second row. -/
def takeB (n : Nat) (m : Merging β) : Merging β :=
  { m with taken := (m.b.take n).toList.reverse ++ m.taken, b := m.b.drop n }

/-- The merged row, when one of the two is used up. -/
def close (m : Merging β) : List β := m.taken.reverse ++ m.a.toList ++ m.b.toList

/-- The merged row, when the last element of the first row is known to be the last of all. -/
def closeLast (m : Merging β) : List β := m.taken.reverse ++ m.b.toList ++ m.a.toList

end Merging

/-- Merges from the front. The last element of the first row is the last of all. -/
def mergeFront : Nat → Pace → Nat → Merging β → Except ε (Merged β)
  | 0, _, often, m => .ok (m.close, often)
  | fuel + 1, .single fromA fromB, often, m =>
    match m.a.get? 0, m.b.get? 0 with
    | some x, some y => do
      if ← before y x then
        let m := m.takeB 1
        if m.b.size = 0 then return (m.close, often)
        else if often ≤ fromB + 1 then mergeFront fuel .search (often + 1) m
        else mergeFront fuel (.single 0 (fromB + 1)) often m
      else
        let m := m.takeA 1
        if m.a.size = 1 then return (m.closeLast, often)
        else if often ≤ fromA + 1 then mergeFront fuel .search (often + 1) m
        else mergeFront fuel (.single (fromA + 1) 0) often m
    | _, _ => .ok (m.close, often)
  | fuel + 1, .search, often, m => do
    let often := if 1 < often then often - 1 else often
    match m.b.get? 0 with
    | none => return (m.close, often)
    | some y =>
      let gainA ← afterEqual before y m.a 0
      let m := m.takeA gainA
      if gainA ≠ 0 ∧ m.a.size = 1 then return (m.closeLast, often)
      else if gainA ≠ 0 ∧ m.a.size = 0 then return (m.close, often)
      else
        let m := m.takeB 1
        if m.b.size = 0 then return (m.close, often)
        else
          match m.a.get? 0 with
          | none => return (m.close, often)
          | some x =>
            let gainB ← beforeEqual before x m.b 0
            let m := m.takeB gainB
            if m.b.size = 0 then return (m.close, often)
            else
              let m := m.takeA 1
              if m.a.size = 1 then return (m.closeLast, often)
              else if leastGain ≤ gainA ∨ leastGain ≤ gainB then mergeFront fuel .search often m
              else mergeFront fuel (.single 0 0) (often + 1) m

/-! ## From the back -/

namespace Merging

/-- Takes the last elements of the first row. -/
def takeLastA (n : Nat) (m : Merging β) : Merging β :=
  { m with taken := (m.a.drop (m.a.size - n)).toList ++ m.taken, a := m.a.take (m.a.size - n) }

/-- Takes the last elements of the second row. -/
def takeLastB (n : Nat) (m : Merging β) : Merging β :=
  { m with taken := (m.b.drop (m.b.size - n)).toList ++ m.taken, b := m.b.take (m.b.size - n) }

/-- The merged row, when one of the two is used up. -/
def closeBack (m : Merging β) : List β := m.a.toList ++ m.b.toList ++ m.taken

/-- The merged row, when the first element of the second row is known to be the first of all. -/
def closeFirst (m : Merging β) : List β := m.b.toList ++ m.a.toList ++ m.taken

end Merging

/-- Merges from the back. The first element of the second row is the first of all. -/
def mergeBack : Nat → Pace → Nat → Merging β → Except ε (Merged β)
  | 0, _, often, m => .ok (m.closeBack, often)
  | fuel + 1, .single fromA fromB, often, m =>
    match m.a.get? (m.a.size - 1), m.b.get? (m.b.size - 1) with
    | some x, some y => do
      if ← before y x then
        let m := m.takeLastA 1
        if m.a.size = 0 then return (m.closeBack, often)
        else if often ≤ fromA + 1 then mergeBack fuel .search (often + 1) m
        else mergeBack fuel (.single (fromA + 1) 0) often m
      else
        let m := m.takeLastB 1
        if m.b.size = 1 then return (m.closeFirst, often)
        else if often ≤ fromB + 1 then mergeBack fuel .search (often + 1) m
        else mergeBack fuel (.single 0 (fromB + 1)) often m
    | _, _ => .ok (m.closeBack, often)
  | fuel + 1, .search, often, m => do
    let often := if 1 < often then often - 1 else often
    match m.b.get? (m.b.size - 1) with
    | none => return (m.closeBack, often)
    | some y =>
      let gainA := m.a.size - (← afterEqual before y m.a (m.a.size - 1))
      let m := m.takeLastA gainA
      if m.a.size = 0 then return (m.closeBack, often)
      else
        let m := m.takeLastB 1
        if m.b.size = 1 then return (m.closeFirst, often)
        else
          match m.a.get? (m.a.size - 1) with
          | none => return (m.closeBack, often)
          | some x =>
            let gainB := m.b.size - (← beforeEqual before x m.b (m.b.size - 1))
            let m := m.takeLastB gainB
            if gainB ≠ 0 ∧ m.b.size = 1 then return (m.closeFirst, often)
            else if gainB ≠ 0 ∧ m.b.size = 0 then return (m.closeBack, often)
            else
              let m := m.takeLastA 1
              if m.a.size = 0 then return (m.closeBack, often)
              else if leastGain ≤ gainA ∨ leastGain ≤ gainB then mergeBack fuel .search often m
              else mergeBack fuel (.single 0 0) (often + 1) m

/-! ## Two rows -/

/-- Merges what is left of two rows once the elements that stay in place are put aside. -/
def mergeRest (often : Nat) (a b : Slice β) : Except ε (Merged β) :=
  let fuel := a.size + b.size + 1
  let m : Merging β := ⟨[], a, b⟩
  if a.size ≤ b.size then
    let m := m.takeB 1
    if m.b.size = 0 then .ok (m.close, often)
    else if m.a.size = 1 then .ok (m.closeLast, often)
    else mergeFront before fuel (.single 0 0) often m
  else
    let m := m.takeLastA 1
    if m.a.size = 0 then .ok (m.closeBack, often)
    else if m.b.size = 1 then .ok (m.closeFirst, often)
    else mergeBack before fuel (.single 0 0) often m

/-- Merges two sorted rows. Elements at the start of the first one that stand before all of the second one stay
where they are, and so do those at the end of the second one. -/
def merge (often : Nat) (a b : Array β) : Except ε (Merged β) :=
  let whole : Merged β := (a.toList ++ b.toList, often)
  match b[0]?, a[a.size - 1]? with
  | some y, some x => do
    let start ← afterEqual before y (.ofArray a) 0
    if start = a.size then return whole
    else
      let stop ← beforeEqual before x (.ofArray b) (b.size - 1)
      if stop = 0 then return whole
      else
        let row := Slice.ofArray b
        let (middle, often) ← mergeRest before often ((Slice.ofArray a).drop start) (row.take stop)
        return (a.toList.take start ++ middle ++ (row.drop stop).toList, often)
  | _, _ => .ok whole

end ZincModel.Sorting
