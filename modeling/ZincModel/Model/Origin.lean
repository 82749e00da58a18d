import ZincModel.Files
import ZincModel.Model.Document

/-!
# Origins of models

Where a model is read from: data, a text, or a file.
-/

namespace ZincModel

/-- Where a model is read from. -/
inductive Origin where
  | data (d : Value)
  | json (text : List Char)
  | yaml (text : List Char)
  | file (path : String)

namespace Model

/-- The model in a file (`load_model_file`). -/
def ofFile (files : Files) (path : String) (s : Store) : Except Fault Model × Store :=
  match files.readText path with
  | .error f => (.error f, s)
  | .ok text => ofText path text s

/-- The model that is read from an origin. -/
def ofOrigin (files : Files) (o : Origin) (s : Store) : Except Fault Model × Store :=
  match o with
  | .data d => ofValue d s
  | .json text => ofJson text s
  | .yaml text => ofYaml text s
  | .file path => ofFile files path s

end Model

end ZincModel
