/-!
# Tags

What kind of value a node of a YAML document stands for: the kinds that YAML defines, and all others, which
have no meaning here.
-/

namespace ZincModel.Yaml

/-- The kind of value that a node stands for. -/
inductive Tag where
  | null
  | bool
  | int
  | float
  | binary
  | timestamp
  | omap
  | pairs
  | set
  | str
  | seq
  | map
  | merge
  | value
  | unknown
  deriving DecidableEq, Repr

namespace Tag

/-- The names of the kinds, behind what they have in common. -/
def names : List (String × Tag) :=
  [("null", null), ("bool", bool), ("int", int), ("float", float), ("binary", binary),
   ("timestamp", timestamp), ("omap", omap), ("pairs", pairs), ("set", set), ("str", str), ("seq", seq),
   ("map", map), ("merge", merge), ("value", value)]

/-- What the full names of the kinds that YAML defines start with. -/
def stem : List Char := "tag:yaml.org,2002:".toList

/-- The tag with a full name. -/
def ofName (name : List Char) : Tag :=
  if stem.isPrefixOf name then
    match names.find? fun n => n.1.toList == name.drop stem.length with
    | some n => n.2
    | none => unknown
  else unknown

/-- The short form of a tag, as it is written in front of a node. -/
def short (t : Tag) : List Char :=
  match names.find? fun n => n.2 == t with
  | some n => '!' :: '!' :: n.1.toList
  | none => ['!']

end Tag

end ZincModel.Yaml
