import ZincModel.Value.Order
import ZincModel.Yaml.Document
import ZincModel.Yaml.Merge
import ZincModel.Yaml.Scalar

/-!
# What the nodes of a document stand for

Every node stands for one value, which is made when the node is met first. A container is empty then; what it
holds is looked at round by round, so that of several faults in a document the one outside comes before the one
further inside. Merge keys and keys `=` of a mapping are dealt with when its content is looked at, and what that
changes in the document is seen by all that comes later.
-/

namespace ZincModel.Yaml

/-- An item of a row of pairs. -/
structure PairItem where
  /-- The number of the pair. -/
  number : Nat
  key : Nat
  value : Nat

/-- What a node stands for. Containers hold the places of other nodes, but their keys and the items of sets are
values. -/
inductive Made where
  | plain (v : Value)
  | list (items : List Nat)
  | pairs (items : List PairItem)
  | set (items : List Value)
  | dict (entries : List (Value × Nat))

/-- The empty container that a tag stands for. -/
def emptyOf : Tag → Option Made
  | .seq => some (.list [])
  | .omap => some (.pairs [])
  | .pairs => some (.pairs [])
  | .set => some (.set [])
  | .map => some (.dict [])
  | _ => none

/-- The text that a node has where a scalar is wanted: a mapping has that of its value under `=`. -/
def Graph.text? (g : Graph) : Nat → (n : Nat) → Option (List Char)
  | 0, _ => none
  | fuel + 1, n =>
    match g.get? n with
    | some (.scalar _ text) => some text
    | some (.mapping _ entries) => (entries.find? fun e => g.hasTag .value e.1).bind fun e => g.text? fuel e.2
    | _ => none

/-- The value of a node that is no container, with a number where it needs one. -/
def Graph.scalarOf (g : Graph) (number n : Nat) : Except Fault Value :=
  match g.get? n, g.text? (g.size + 1) n with
  | some (.mapping .timestamp _), some _ => .error (.shape (.notSearchable "list"))
  | some node, some text => Yaml.scalarOf number node.tag text
  | _, _ => .error .yaml

/-- How far the values of a document have been made. -/
structure Making where
  graph : Graph
  /-- What the nodes stand for, by their places. -/
  made : Array (Option Made)
  /-- The containers whose content has not been looked at, the last one first. -/
  waiting : List Nat
  /-- The number that the values of nodes have in addition to the place of the node. -/
  first : Nat
  /-- The number of the next pair. -/
  nextNumber : Nat
  /-- The number of merge keys that the document had. -/
  merges : Nat

namespace Making

/-- Nothing has been made. Numbers start with `first`. -/
def start (first : Nat) (g : Graph) : Making :=
  ⟨g, Array.replicate g.size none, [], first, first + g.size, g.mergeCount⟩

/-- What the node at a place stands for, if it has been met. -/
def made? (n : Nat) (m : Making) : Option Made := m.made[n]?.join

/-- The node at a place stands for this. -/
def put (n : Nat) (x : Made) (m : Making) : Making := { m with made := m.made.setIfInBounds n (some x) }

/-- Meets the node at a place. -/
def make (m : Making) (n : Nat) : Except Fault Making :=
  if (m.made? n).isSome then .ok m
  else
    match (m.graph.get? n).bind fun node => emptyOf node.tag with
    | some container => .ok { m.put n container with waiting := n :: m.waiting }
    | none => do
      let v ← m.graph.scalarOf (m.first + n) n
      return m.put n (.plain v)

/-- The value of a node as a key; containers are none. -/
def key? (n : Nat) (m : Making) : Option Value :=
  match m.made? n with
  | some (.plain v) => some v
  | _ => none

/-- Adds an entry to those of a mapping, the key of which is looked at before the value is met. -/
def addEntry (r : List (Value × Nat) × Making) (e : Nat × Nat) : Except Fault (List (Value × Nat) × Making) := do
  let (entries, m) := r
  let m ← m.make e.1
  match m.key? e.1 with
  | none => throw .yaml
  | some k =>
    let m ← m.make e.2
    return (Value.insert k e.2 entries, m)

/-- Adds a mapping with one entry to a row of pairs, the last one first. -/
def addPair (r : List PairItem × Making) (n : Nat) : Except Fault (List PairItem × Making) := do
  let (items, m) := r
  match m.graph.get? n with
  | some (.mapping _ [(k, v)]) =>
    let m ← m.make k
    let m ← m.make v
    return (⟨m.nextNumber, k, v⟩ :: items, { m with nextNumber := m.nextNumber + 1 })
  | _ => throw .yaml

/-- Looks at the content of the container at a place. -/
def fill (m : Making) (n : Nat) : Except Fault Making :=
  match m.graph.get? n with
  | some (.sequence .seq items) => do
    let m ← items.foldlM make m
    return m.put n (.list items)
  | some (.sequence tag items) =>
    if tag == .omap || tag == .pairs then do
      let (pairs, m) ← items.foldlM addPair ([], m)
      return m.put n (.pairs pairs.reverse)
    else .error .yaml
  | some (.mapping tag _) =>
    if tag == .map || tag == .set then do
      let graph ← m.graph.flatten m.merges n
      let (entries, m) ← (graph.entries n).foldlM addEntry ([], { m with graph := graph })
      return m.put n (if tag == .map then .dict entries else .set (entries.map (·.1)))
    else .error .yaml
  | _ => .error .yaml

/-- Looks at the content of containers, round by round. -/
def fillAll : Nat → Making → Except Fault Making
  | 0, m => .ok m
  | rounds + 1, m =>
    if m.waiting.isEmpty then .ok m
    else do
      let m ← m.waiting.reverse.foldlM fill { m with waiting := [] }
      fillAll rounds m

end Making

/-- All that a document stands for; numbers start with `first`. -/
def Document.made (first : Nat) (d : Document) : Except Fault Making := do
  let m ← (Making.start first d.graph).make d.root
  m.fillAll (d.graph.size + 1)

end ZincModel.Yaml
