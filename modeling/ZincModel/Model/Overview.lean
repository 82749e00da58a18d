import ZincModel.Model.Document
import ZincModel.Program.Source

/-!
# Overviews

All forms of a model at once: as data, as a program, and as a text of each document format, together with
whether the model that a text describes has the same data again.
-/

namespace ZincModel

/-- All forms of a model. -/
structure Overview where
  data : Value
  source : Except Fault (List Char)
  json : Except Fault (List Char)
  yaml : Except Fault (List Char)
  /-- The JSON text leads to the same data. -/
  keepsJson : Except Fault Bool
  /-- The YAML text leads to the same data. -/
  keepsYaml : Except Fault Bool

namespace Model

/-- A text of the model is read as a model with the same data. -/
def keeps (s : Store) (m : Model) (write : Except Fault (List Char))
    (read : List Char → Store → Except Fault Model × Store) : Except Fault Bool := do
  let text ← write
  match read text s with
  | (.ok again, s') => return (m.toValue s).same (again.toValue s')
  | (.error f, _) => throw f

/-- All forms of the model. -/
def overview (s : Store) (m : Model) : Overview where
  data := m.toValue s
  source := Program.source s m
  json := m.toJson s
  yaml := m.toYaml s
  keepsJson := m.keeps s (m.toJson s) ofJson
  keepsYaml := m.keeps s (m.toYaml s) ofYaml

end Model

end ZincModel
