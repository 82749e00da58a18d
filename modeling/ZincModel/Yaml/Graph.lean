import ZincModel.Yaml.Tag

/-!
# Documents as tables of nodes

A document is a table of nodes, which refer to what they hold by its place in the table. A node that is referred
to at several places, or from inside itself, stands in the table once.
-/

namespace ZincModel.Yaml

/-- A node of a document. -/
inductive Node where
  | scalar (tag : Tag) (text : List Char)
  | sequence (tag : Tag) (items : List Nat)
  | mapping (tag : Tag) (entries : List (Nat × Nat))

namespace Node

/-- The tag of a node. -/
def tag : Node → Tag
  | scalar t _ => t
  | sequence t _ => t
  | mapping t _ => t

/-- The node with another tag. -/
def retag (t : Tag) : Node → Node
  | scalar _ text => scalar t text
  | sequence _ items => sequence t items
  | mapping _ entries => mapping t entries

end Node

/-- The nodes of a document. -/
structure Graph where
  nodes : Array Node

namespace Graph

/-- The document without nodes. -/
def empty : Graph := ⟨#[]⟩

/-- The number of nodes. -/
def size (g : Graph) : Nat := g.nodes.size

/-- The node at a place. -/
def get? (n : Nat) (g : Graph) : Option Node := g.nodes[n]?

/-- Adds a node behind the others. -/
def add (node : Node) (g : Graph) : Graph := ⟨g.nodes.push node⟩

/-- Puts a node in the place of another one. -/
def put (n : Nat) (node : Node) (g : Graph) : Graph := ⟨g.nodes.setIfInBounds n node⟩

/-- The node at a place has this tag. -/
def hasTag (t : Tag) (n : Nat) (g : Graph) : Bool := (g.get? n).any (·.tag == t)

/-- The entries of the mapping at a place. -/
def entries (n : Nat) (g : Graph) : List (Nat × Nat) :=
  match g.get? n with
  | some (.mapping _ entries) => entries
  | _ => []

/-- The mapping at a place with other entries. -/
def putEntries (n : Nat) (entries : List (Nat × Nat)) (g : Graph) : Graph :=
  match g.get? n with
  | some (.mapping tag _) => g.put n (.mapping tag entries)
  | _ => g

/-- The node at a place with another tag. -/
def retag (t : Tag) (n : Nat) (g : Graph) : Graph :=
  match g.get? n with
  | some node => g.put n (node.retag t)
  | none => g

end Graph

end ZincModel.Yaml
