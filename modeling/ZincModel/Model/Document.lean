import ZincModel.Json.Reader
import ZincModel.Json.Writer
import ZincModel.Model.Basic
import ZincModel.Yaml.Meaning
import ZincModel.Yaml.Writer

/-!
# Models as documents

A model as a dictionary of plain data, and as a JSON or YAML text of that. Constraints and objective refer to
variables by their names. The values that decision variables have been given are no part of a document.

What does not have the form of a model is refused with the reason: an entry that is missing, or a value that
is no dictionary or no list where one is wanted. Data of another form is looked into as far as its own form
allows, so that a dictionary counts as a list of its keys, and a text as a list of its characters.
-/

namespace ZincModel

/-! ## Looking into data -/

namespace Value

/-- The value under a key that must be there. -/
def entry (key : String) (d : Value) : Except Fault Value :=
  match d.opened with
  | dict _ entries =>
    match lookup key entries with
    | some v => .ok v
    | none => .error (.missingKey key)
  | list .. => .error (.shape (.badIndex "list"))
  | tuple .. => .error (.shape (.badIndex "tuple"))
  | bytes _ => .error (.shape (.badIndex "byte"))
  | str _ => .error (.shape .textIndex)
  | v => .error (.shape (.notSubscriptable v.fullKind))

/-- The value under a key of a dictionary, if it is there. -/
def entry? (key : String) (d : Value) : Except Fault (Option Value) :=
  match d.opened with
  | dict _ entries => .ok (lookup key entries)
  | v => .error (.missingField v.fullKind "get")

/-- The values that a value goes through one by one. -/
def members (v : Value) : Except Fault (List Value) :=
  match v.opened with
  | list _ items => .ok items
  | tuple _ items => .ok items
  | set _ items => .ok items
  | dict _ entries => .ok (entries.map (·.1))
  | str s => .ok (s.toList.map fun c => str (String.singleton c))
  | bytes bs => .ok (bs.map fun b => int b.toNat)
  | v => .error (.shape (.notIterable v.fullKind))

/-- The members of what stands under a key, none if that is missing or empty. -/
def membersOf (key : String) (d : Value) : Except Fault (List Value) := do
  match ← d.entry? key with
  | some v => if v.isTrue then v.members else return []
  | none => return []

end Value

/-- A dictionary with text keys. -/
def Value.ofFields (fields : List (String × Value)) : Value :=
  .ofEntries (fields.map fun f => (.str f.1, f.2))

namespace Model

/-! ## From a model to data -/

/-- A variable as data (`variable_to_dict`). -/
def variableData (v : Variable) : Value :=
  let own :=
    match v.role with
    | .parameter _ => ("value", v.value)
    | .decision lo hi => ("domain", .ofList [lo, hi])
  .ofFields [("name", .str v.name), ("type", .str v.type.spelling), own]

/-- A constraint as data (`constraint_to_dict`). -/
def constraintData (s : Store) (c : Constraint) : Value :=
  .ofFields
    [("operator", .str c.operator.spelling), ("variables", .ofList (c.operands.map fun r => .str (s.name r)))]

/-- The model as data (`model_to_dict`). -/
def toValue (s : Store) (m : Model) : Value :=
  .ofFields
    [("parameter", .ofList (m.parameter.map fun r => variableData (s.get r))),
     ("decision", .ofList (m.decision.map fun r => variableData (s.get r))),
     ("constraints", .ofList (m.constraints.map (constraintData s))),
     ("objective", .str m.objective.spelling),
     ("objective_variable",
       match m.objectiveVariable with
       | some r => .str (s.name r)
       | none => .null)]

/-- The JSON text of the model, with sorted keys (`model_to_json`). -/
def toJson (s : Store) (m : Model) : Except Fault (List Char) := Json.write true (m.toValue s)

/-- The YAML text of the model (`model_to_yaml`). -/
def toYaml (s : Store) (m : Model) : Except Fault (List Char) := Yaml.write (m.toValue s)

/-! ## From data to a model -/

/-- The declaration of a variable that data describes (`variable_from_dict`). -/
def declarationOf (kind : Kind) (d : Value) : Except Fault Declaration := do
  let type ← d.entry "type"
  let value ← d.entry? "value"
  let domain ← d.entry? "domain"
  let name ← d.entry "name"
  return ⟨type, .str kind.spelling, value.getD .null, domain.getD .null, name⟩

/-- Declares the variables that data describes, up to the first fault. -/
def declareAll (kind : Kind) : List Value → Store → Except Fault (List Ref) × Store
  | [], s => (.ok [], s)
  | d :: rest, s =>
    match declarationOf kind d with
    | .error f => (.error f, s)
    | .ok declaration =>
      match s.declare declaration with
      | (.error f, s) => (.error f, s)
      | (.ok r, s) =>
        match declareAll kind rest s with
        | (.error f, s) => (.error f, s)
        | (.ok rs, s) => (.ok (r :: rs), s)

/-- Variables by their names. -/
abbrev Named := List (String × Ref)

/-- The variables by their names; of several with one name the last one comes first. -/
def named (s : Store) (refs : List Ref) : Named := refs.reverse.map fun r => (s.name r, r)

/-- The variable that a value names; the fault says what it is wanted for if there is none. -/
def resolve (names : Named) (unknown : String → ModelFault) (v : Value) : Except Fault Ref :=
  match v.unhashable? with
  | some kind => .error (.shape (.unhashable kind))
  | none =>
    let found :=
      match v with
      | .str name => names.lookup name
      | _ => none
    match found with
    | some r => .ok r
    | none => do
      let shown ← v.displayed
      throw (.model (unknown shown))

/-- The constraint that data describes (`constraint_from_dict`). -/
def constraintOf (names : Named) (d : Value) : Except Fault Constraint := do
  let operands ← ((← d.entry? "variables").getD (.ofList [])).members
  let operands ← operands.mapM (resolve names .unknownOperand)
  let operator ← d.entry "operator"
  Constraint.make operator (operands.map .proper)

/-- The model that data describes, once its variables are declared. -/
def ofParts (s : Store) (parameter decision : List Ref) (d : Value) : Except Fault Model := do
  let names := named s (parameter ++ decision)
  let constraints ← (← d.membersOf "constraints").mapM (constraintOf names)
  let objectiveVariable ←
    match ← d.entry? "objective_variable" with
    | none => pure none
    | some .null => pure none
    | some v => (resolve names .unknownObjectiveVariable v).map some
  let objective ← d.entry? "objective"
  make s decision parameter constraints (objective.getD (.str "satisfy")) objectiveVariable

/-- Declares the variables of the kind that data describes under a key. -/
def declareUnder (kind : Kind) (key : String) (d : Value) (s : Store) : Except Fault (List Ref) × Store :=
  match d.membersOf key with
  | .error f => (.error f, s)
  | .ok items => declareAll kind items s

/-- The model that a dictionary describes, whose variables are declared (`_model_from_dict`). -/
def ofDict (d : Value) (s : Store) : Except Fault Model × Store :=
  match declareUnder .parameter "parameter" d s with
  | (.error f, s) => (.error f, s)
  | (.ok parameter, s) =>
    match declareUnder .decision "decision" d s with
    | (.error f, s) => (.error f, s)
    | (.ok decision, s) => (ofParts s parameter decision d, s)

/-- A fault that says that data does not have the form of a model. -/
def malformed : Fault → Fault
  | .missingKey key => .model (.malformed ("KeyError(" ++ shown key ++ ")"))
  | .shape cause => .model (.malformed ("TypeError(" ++ shown cause.message ++ ")"))
  | .missingField kind field =>
    .model (.malformed ("AttributeError(" ++ shown (missingFieldMessage kind field) ++ ")"))
  | f => f

/-- The model that data describes (`model_from_dict`). -/
def ofValue (d : Value) (s : Store) : Except Fault Model × Store :=
  match d with
  | .dict .. =>
    let (m, s) := ofDict d s
    (m.mapError malformed, s)
  | d => (.error (.model (.notMapping d.kind)), s)

/-- The model that a JSON text describes (`model_from_json`). -/
def ofJson (text : List Char) (s : Store) : Except Fault Model × Store :=
  match Json.read text with
  | .ok d => ofValue d s
  | .error (.malformed f) => (.error (.model (.invalidJson f.message)), s)
  | .error (.tooLong digits) => (.error (.content (.integerUnreadable digits)), s)

/-- The model that a YAML text describes (`model_from_yaml`). -/
def ofYaml (text : List Char) (s : Store) : Except Fault Model × Store :=
  match Yaml.read s.nextNumber (.ofText text) with
  | .ok (d, nextNumber) => ofValue d { s with nextNumber := nextNumber }
  | .error .yaml => (.error (.model (.invalidYaml text)), s)
  | .error f => (.error f, s)

/-- The model that the text of a file describes; the end of its path tells which format it has. -/
def ofText (path : String) (text : List Char) (s : Store) : Except Fault Model × Store :=
  if ".json".toList.isSuffixOf path.toList then ofJson text s else ofYaml text s

end Model

end ZincModel
