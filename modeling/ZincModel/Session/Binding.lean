import ZincModel.Files
import ZincModel.Model.Basic

/-!
# Sessions

A session gives names to what has been made in it: variables, constraints and models. A reference is such a
name, or the name of a model with that of one of its variables, or a plain value that is none of these.

Since a model has variables like a constraint, it can be listed among the constraints of another model. It is
none, and whoever asks that model for its constraints comes upon it.
-/

namespace ZincModel

/-- What a session can refer to. -/
inductive Thing where
  | ref (r : Ref)
  | constraint (c : Constraint)
  /-- A model, among whose constraints a number of other models are listed. -/
  | model (m : Model) (strays : Nat)
  | plain (v : Value)

/-- A model as it is found in a session. -/
structure ModelInUse where
  model : Model
  /-- The number of models that are listed among its constraints. -/
  strays : Nat

namespace ModelInUse

/-- What is listed as constraints. -/
def listed (m : ModelInUse) : List (Given Constraint) :=
  m.model.constraints.map .proper ++ List.replicate m.strays (.other "Model")

/-- The model, if all that is listed as constraints has the field of one; a fault if not. -/
def proper (field : String) (m : ModelInUse) : Except Fault Model := do
  let _ ← m.listed.mapM fun g => g.require field
  return m.model

end ModelInUse

namespace Thing

/-- The name of the kind of a thing. -/
def kind : Thing → String
  | ref _ => "Variable"
  | constraint _ => "Constraint"
  | model .. => "Model"
  | plain v => v.fullKind

/-- The thing where a variable is expected. -/
def asRef : Thing → Given Ref
  | ref r => .proper r
  | t => .other t.kind

/-- The thing where something with variables is expected. -/
def asClause : Thing → Given Clause
  | constraint c => .proper (.constraint c)
  | model m _ => .proper (.other m.members)
  | t => .other t.kind

/-- The thing where a constraint is expected. -/
def asConstraint : Thing → Given Constraint
  | constraint c => .proper c
  | t => .other t.kind

/-- The thing where a model is expected. -/
def asModel : Thing → Given ModelInUse
  | model m strays => .proper ⟨m, strays⟩
  | t => .other t.kind

/-- The thing where a variable may be left out. -/
def asOptionalRef : Thing → Option (Given Ref)
  | plain .null => none
  | t => some t.asRef

end Thing

/-- How a session refers to a thing. -/
inductive Reference where
  | handle (name : String)
  | member (model name : String)
  | plain (v : Value)

/-- The reference as it is written, where it is a text. -/
def Reference.text : Reference → String
  | handle name => name
  | member model name => model ++ "/" ++ name
  | plain _ => ""

/-- What has been made so far. -/
structure Session where
  store : Store := {}
  /-- The names with what they stand for, the latest first. -/
  bindings : List (String × Thing) := []
  files : Files := []

/-- Why a session does not come to an answer: a reference stands for nothing, or there is a fault. -/
inductive Session.Stop where
  | unbound (reference : String)
  | fault (f : Fault)

namespace Session

/-- The session in which a name stands for a thing. -/
def bind (handle : String) (t : Thing) (s : Session) : Session := { s with bindings := (handle, t) :: s.bindings }

/-- The thing that a name stands for. -/
def named (s : Session) (name : String) : Except Stop Thing :=
  match s.bindings.lookup name with
  | some t => .ok t
  | none => .error (.unbound name)

/-- The thing that a reference stands for. -/
def find (s : Session) (reference : Reference) : Except Stop Thing :=
  match reference with
  | .handle name => s.named name
  | .member model name => do
    let t ← s.named model
    let m ← (t.asModel.require "get_variable").mapError .fault
    match m.model.find? s.store name with
    | some r => return .ref r
    | none => throw (.unbound reference.text)
  | .plain v => .ok (.plain v)

/-- The variables, or other things, that references stand for. -/
def findRefs (s : Session) (references : List Reference) : Except Stop (List (Given Ref)) :=
  references.mapM fun r => (s.find r).map Thing.asRef

/-- The constraints, or other things, that references stand for. -/
def findConstraints (s : Session) (references : List Reference) : Except Stop (List (Given Constraint)) :=
  references.mapM fun r => (s.find r).map Thing.asConstraint

/-- The constraints and models, or other things, that references stand for. -/
def findClauses (s : Session) (references : List Reference) : Except Stop (List (Given Clause)) :=
  references.mapM fun r => (s.find r).map Thing.asClause

/-- The variable that a reference stands for; a fault, when its field is asked for, if it is none. -/
def findRef (s : Session) (field : String) (reference : Reference) : Except Stop Ref := do
  let t ← s.find reference
  (t.asRef.require field).mapError .fault

/-- The model that a reference stands for; a fault, when its field is asked for, if it is none. -/
def findModel (s : Session) (field : String) (reference : Reference) : Except Stop ModelInUse := do
  let t ← s.find reference
  (t.asModel.require field).mapError .fault

/-- The value is held only once, wherever it comes from: small integers and the shortest texts are. -/
def isUnique : Value → Bool
  | .null => true
  | .bool _ => true
  | .int n => -5 ≤ n && n ≤ 256
  | .str s => s.toList.length ≤ 1 && s.toList.all (·.toNat < 256)
  | .tuple _ items => items.isEmpty
  | _ => false

/-- Two references stand for one thing. Constraints and models are never made twice, so there it is the name
that counts. -/
def isSame (s : Session) (a b : Reference) : Except Stop Bool := do
  match ← s.find a, ← s.find b with
  | .ref r, .ref r' => return r == r'
  | .plain v, .plain w => return isUnique v && v.same w
  | .ref _, _ => return false
  | _, .ref _ => return false
  | .plain _, _ => return false
  | _, .plain _ => return false
  | _, _ => return a.text == b.text

end Session

end ZincModel
