import ZincModel.Fault
import ZincModel.Yaml.Graph

/-!
# Merge keys

A mapping takes in the entries of the mapping under a merge key, or those of each mapping of a sequence, of which
the earlier ones count more. What is taken in stands before the mapping's own entries, so that these count more.
The mappings that entries are taken from take in their own first; the document keeps all of them as they are then,
without merge keys.
-/

namespace ZincModel.Yaml

namespace Graph

/-- The value under the first merge key of a mapping, and the entries without it. -/
def splitMerge (g : Graph) : List (Nat × Nat) → Option (Nat × List (Nat × Nat))
  | [] => none
  | (k, v) :: rest =>
    if g.hasTag .merge k then some (v, rest)
    else (g.splitMerge rest).map fun r => (r.1, (k, v) :: r.2)

/-- The document in which the keys `=` of a mapping are texts like others. -/
def plainKeys (n : Nat) (g : Graph) : Graph :=
  (g.entries n).foldl (fun g e => if g.hasTag .value e.1 then g.retag .str e.1 else g) g

/-- The number of entries with merge keys. -/
def mergeCount (g : Graph) : Nat :=
  g.nodes.foldl
    (fun count node =>
      match node with
      | .mapping _ entries => count + (entries.filter fun e => g.hasTag .merge e.1).length
      | _ => count)
    0

/-- The document in which the mapping at a place has taken in what its merge keys say, behind what it has taken in
already. -/
def takeIn : Nat → (taken : List (Nat × Nat)) → (n : Nat) → Graph → Except Fault Graph
  | 0, _, _, _ => .error .yaml
  | fuel + 1, taken, n, g =>
    match g.splitMerge (g.entries n) with
    | none =>
      let g := g.plainKeys n
      .ok (if taken.isEmpty then g else g.putEntries n (taken ++ g.entries n))
    | some (source, rest) => do
      let g := g.putEntries n rest
      match g.get? source with
      | some (.mapping ..) =>
        let g ← takeIn fuel [] source g
        takeIn fuel (taken ++ g.entries source) n g
      | some (.sequence _ items) =>
        let (lists, g) ← items.foldlM
          (fun (lists, g) item => do
            match g.get? item with
            | some (.mapping ..) =>
              let g ← takeIn fuel [] item g
              return (g.entries item :: lists, g)
            | _ => throw .yaml)
          (([] : List (List (Nat × Nat))), g)
        takeIn fuel (taken ++ lists.flatten) n g
      | _ => throw .yaml

/-- The document in which the mapping at a place has no merge keys; there are at most `merges` of them in all. -/
def flatten (merges n : Nat) (g : Graph) : Except Fault Graph := takeIn (merges + 1) [] n g

end Graph

end ZincModel.Yaml
