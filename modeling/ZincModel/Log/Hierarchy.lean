/-!
# The hierarchy of parts

The name of a part tells which parts it belongs to: what stands in front of a dot in it names a part around it,
if there is such a part. Where two dots follow each other the first one counts as a character of the name
between them. A part is there as soon as it has been used; of the parts around a part that are there, the
nearest one hands its records on.
-/

namespace ZincModel.Log

/-- The name of the part that all parts of the program belong to. -/
def rootName : String := "mznbridge"

/-- What stands in front of the dots of a name, which is given from its end on; the longest text first. -/
def beforeDots : List Char → List (List Char)
  | [] => []
  | '.' :: rest =>
    match rest with
    | [] => []
    | _ :: before => rest.reverse :: beforeDots before
  | _ :: rest => beforeDots rest

/-- The names of the parts that may be around a part, the nearest one first. -/
def surrounding (name : String) : List String := (beforeDots name.toList.reverse).map String.ofList

/-- Among the parts that are there, the one with this name belongs to the program. The chain of the parts around
it has less parts than its name has characters. -/
def reaches (present : List String) : Nat → String → Bool
  | 0, name => name == rootName
  | fuel + 1, name =>
    name == rootName ||
      match (surrounding name).find? fun part => part == rootName || present.contains part with
      | some part => reaches present fuel part
      | none => false

/-- Among the parts that are there, the one with this name belongs to the program. -/
def isPart (present : List String) (name : String) : Bool := reaches present name.length name

end ZincModel.Log
