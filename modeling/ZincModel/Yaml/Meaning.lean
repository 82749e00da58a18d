import ZincModel.Yaml.Making

/-!
# The value of a document

The value of the node that the others are part of, with the values of all nodes in it. Where a container is met
inside of itself a loop stands, so what a container holds depends on what it is met in; a container that holds no
loops is the same everywhere.
-/

namespace ZincModel.Yaml

/-- A loop stands in the value. -/
def holdsLoop : Value → Bool
  | .list l _ => l.any (·.hasLoop)
  | .tuple l _ => l.any (·.hasLoop)
  | .dict l _ => l.any (·.hasLoop)
  | .loop .. => true
  | _ => false

/-- The values of nodes that have been found, with the containers they were met in. -/
abbrev Found := Array (Option (List Nat × Value))

/-- The value of a node that has been found, as it is inside of the containers on the path. -/
def Found.get? (found : Found) (path : List Nat) (n : Nat) : Option Value :=
  match found[n]?.join with
  | some (p, v) => if !holdsLoop v || p == path then some v else none
  | none => none

section Unfolding

variable (m : Making)

/-- The values of a row of nodes. -/
def valuesOf (value : Nat → Found → Value × Found) : List Nat → Found → List Value × Found
  | [], found => ([], found)
  | n :: rest, found =>
    let (v, found) := value n found
    let (vs, found) := valuesOf value rest found
    (v :: vs, found)

/-- The value of a container that is met inside of the containers on the path. -/
def containerOf (value : Nat → Found → Value × Found) (number : Nat) : Made → Found → Value × Found
  | .plain v, found => (v, found)
  | .list items, found =>
    let (vs, found) := valuesOf value items found
    (.list (some ⟨number, vs.any holdsLoop⟩) vs, found)
  | .pairs items, found =>
    let (ks, found) := valuesOf value (items.map (·.key)) found
    let (vs, found) := valuesOf value (items.map (·.value)) found
    let tuples := (items.zip (ks.zip vs)).map fun (i, k, v) =>
      Value.tuple (some ⟨i.number, holdsLoop k || holdsLoop v⟩) [k, v]
    (.list (some ⟨number, tuples.any holdsLoop⟩) tuples, found)
  | .set items, found => (.set (some ⟨number, false⟩) items, found)
  | .dict entries, found =>
    let (vs, found) := valuesOf value (entries.map (·.2)) found
    (.dict (some ⟨number, vs.any holdsLoop⟩) ((entries.map (·.1)).zip vs), found)

/-- The value of the node at a place that is met inside of the containers on the path. -/
def valueOf : Nat → (path : List Nat) → (n : Nat) → Found → Value × Found
  | 0, _, _, found => (.null, found)
  | fuel + 1, path, n, found =>
    match m.made? n with
    | none => (.null, found)
    | some (.plain v) => (v, found)
    | some container =>
      if path.contains n then
        let isDict := match container with
          | .dict _ => true
          | _ => false
        (.loop (m.first + n) isDict, found)
      else
        match found.get? path n with
        | some v => (v, found)
        | none =>
          let (v, found) := containerOf (valueOf fuel (n :: path)) (m.first + n) container found
          (v, found.setIfInBounds n (some (path, v)))

end Unfolding

/-- The value of the only document in a text, null if there is none. Numbers start with `first`; the next number
is returned too. -/
def read (first : Nat) (s : Input) : Except Fault (Value × Nat) := do
  match ← readDocument (tokensOf s) with
  | none => return (.null, first)
  | some d =>
    let m ← d.made first
    let size := d.graph.size
    return ((valueOf m (size + 1) [] d.root (Array.replicate size none)).1, m.nextNumber)

end ZincModel.Yaml
