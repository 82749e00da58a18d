import ZincModel.Model.Overview
import ZincModel.Model.Origin
import ZincModel.Session.Binding
import ZincModel.Solver.Workspace

/-!
# Commands of a session

What can be done in a session, one command after the other. Each command has an answer; one that fails has the
reason for an answer and binds no name, but what it did to variables before it failed stays done.
-/

namespace ZincModel

namespace Session

/-- What is done in a session. -/
inductive Command where
  | declare (handle : String) (declaration : Declaration)
  | relate (handle : String) (operator : Value) (operands : List Reference)
  | compose (handle : String) (decision parameter constraints : List Reference) (objective : Value)
      (objectiveVariable : Option Reference)
  /-- Lets an entry, or nothing, stand at a path. -/
  | provide (path : String) (entry : Option Entry)
  | load (handle : String) (origin : Origin)
  | lookUp (model : Reference) (name : Value)
  | compare (a b : Reference)
  | inspect (reference : Reference)
  | setValue (reference : Reference) (value : Value)
  | serialize (parameter decision constraints : List Reference)
  | render (model : Reference)
  | solveItem (model : Reference)
  | toJson (model : Reference)
  | toYaml (model : Reference)
  | toData (model : Reference)
  | save (model : Reference) (path : String)
  | assign (solution : Value) (decision : List Reference)
  | interpret (output : Option Entry) (decision : List Reference)
  | list (references : List Reference)
  /-- The environment configures the solver if no configuration is given. -/
  | evaluate (model : Reference) (solver : String) (config : Option Config)
      (settings : List (String × String)) (chance : Solver.Chance)

/-- The values of variables by their names. -/
abbrev Values := List (String × Value)

/-- What a command answers. -/
inductive Answer where
  | nothing
  | truth (b : Bool)
  | text (s : List Char)
  | data (v : Value)
  | bytes (bs : List UInt8)
  | variableView (v : Variable)
  | constraintView (operator : Operator) (left right : String)
  | modelView (members : List String) (constraints : Nat) (objective : Objective)
      (objectiveVariable : Option String)
  | assigned (unmatched : List Value) (values : Values)
  | interpreted (firstLine : List Char) (status : Except Fault Solution.Status) (values : Values)
  | evaluated (result : Except Fault Bool) (calls : List Solver.Call) (values : Values)
      (transcript : List (List Char))

/-- The variable as an answer. -/
def view (s : Session) (r : Ref) : Answer := .variableView (s.store.get r)

/-- The model as an answer. -/
def viewModel (s : Session) (m : Model) (strays : Nat) : Answer :=
  .modelView (m.members.map s.store.name) (m.constraints.length + strays) m.objective
    (m.objectiveVariable.map s.store.name)

/-- The values of variables. -/
def values (s : Session) (refs : List Ref) : Values := refs.map fun r => (s.store.name r, (s.store.get r).value)

/-- Names a model that was made, if it was. -/
def bindModel (handle : String) (made : Except Fault Model × Store) (s : Session) : Except Stop Answer × Session :=
  let s := { s with store := made.2 }
  match made.1 with
  | .error f => (.error (.fault f), s)
  | .ok m => (.ok (s.viewModel m 0), s.bind handle (.model m 0))

/-- The entries of a value that is a solution. -/
def entriesOf : Value → Except Fault (List (Value × Value))
  | .dict _ entries => .ok entries
  | v => .error (.missingField v.fullKind "items")

/-- The variables among things, all of which have to be variables. -/
def namedRefs (s : Session) (references : List Reference) : Except Stop (List Ref) := do
  let given ← s.findRefs references
  (given.mapM fun (g : Given Ref) => g.require "name").mapError .fault

/-! ## Commands that only look -/

/-- What a model is asked for. -/
def consult (s : Session) (field : String) (reference : Reference) (answer : ModelInUse → Except Fault Answer) :
    Except Stop Answer := do
  let m ← s.findModel field reference
  (answer m).mapError .fault

/-- The program for a model. -/
def source (s : Session) (m : ModelInUse) : Except Fault (List Char) := do
  let r := m.model
  let _ ← Program.declarationsOfGiven s.store (r.parameter.map .proper) (r.decision.map .proper) m.listed
  Program.source s.store r

/-- The lines for given variables and constraints. -/
def serialize (s : Session) (parameter decision constraints : List Reference) : Except Stop Answer := do
  let parameter ← s.findRefs parameter
  let decision ← s.findRefs decision
  let constraints ← s.findConstraints constraints
  let text ← (Program.declarationsOfGiven s.store parameter decision constraints).mapError .fault
  return .text text

/-- The variable of a model with a name, if there is one. -/
def lookUp (s : Session) (reference : Reference) (name : Value) : Except Stop Answer := do
  let m ← s.findModel "get_variable" reference
  match name with
  | .str name =>
    match m.model.find? s.store name with
    | some r => return s.view r
    | none => return .nothing
  | _ => return .nothing

/-! ## Commands that change the session -/

/-- Declares a variable. -/
def declare (handle : String) (d : Declaration) (s : Session) : Except Stop Answer × Session :=
  let (made, store) := s.store.declare d
  let s := { s with store := store }
  match made with
  | .error f => (.error (.fault f), s)
  | .ok r => (.ok (s.view r), s.bind handle (.ref r))

/-- Makes a constraint. -/
def relate (handle : String) (operator : Value) (operands : List Reference) (s : Session) :
    Except Stop Answer × Session :=
  let made : Except Stop Constraint := do
    let operands ← s.findRefs operands
    (Constraint.make operator operands).mapError .fault
  match made with
  | .error stop => (.error stop, s)
  | .ok c =>
    (.ok (.constraintView c.operator (s.store.name c.left) (s.store.name c.right)), s.bind handle (.constraint c))

/-- Makes a model. -/
def compose (handle : String) (decision parameter constraints : List Reference) (objective : Value)
    (objectiveVariable : Option Reference) (s : Session) : Except Stop Answer × Session :=
  let made : Except Stop (Model × Nat) := do
    let decision ← s.findRefs decision
    let parameter ← s.findRefs parameter
    let clauses ← s.findClauses constraints
    let objectiveVariable ←
      match objectiveVariable with
      | some r => (s.find r).map Thing.asOptionalRef
      | none => pure none
    let m ← (Model.ofGiven s.store decision parameter clauses objective objectiveVariable).mapError .fault
    return (m, clauses.length - m.constraints.length)
  match made with
  | .error stop => (.error stop, s)
  | .ok (m, strays) => (.ok (s.viewModel m strays), s.bind handle (.model m strays))

/-- Gives a variable a value. A plain value takes none; a constraint or a model would, but is no variable. -/
def setValue (reference : Reference) (value : Value) (s : Session) : Except Stop Answer × Session :=
  let field :=
    match reference with
    | .plain _ => "value"
    | _ => "name"
  match s.findRef field reference with
  | .error stop => (.error stop, s)
  | .ok r =>
    let s := { s with store := s.store.setValue r value }
    (.ok (s.view r), s)

/-- Writes the program for a model to a file. -/
def save (reference : Reference) (path : String) (s : Session) : Except Stop Answer × Session :=
  let written : Except Stop (List UInt8 × Files) := do
    let m ← s.findModel "parameter" reference
    let source ← (s.source m).mapError .fault
    let bytes := Text.Utf8.encode source
    let files ← (s.files.write path bytes).mapError .fault
    return (← (files.readBytes path).mapError .fault, files)
  match written with
  | .error stop => (.error stop, s)
  | .ok (bytes, files) => (.ok (.bytes bytes), { s with files := files })

/-- Gives decision variables the values of a solution. -/
def assign (solution : Value) (decision : List Reference) (s : Session) : Except Stop Answer × Session :=
  let given : Except Stop (List Ref × List (Value × Value)) := do
    let refs ← s.namedRefs decision
    let entries ← (entriesOf solution).mapError .fault
    return (refs, entries)
  match given with
  | .error stop => (.error stop, s)
  | .ok (refs, entries) =>
    let unmatched := Solution.unmatched s.store refs entries
    let s := { s with store := Solution.assign s.store refs entries }
    match Solution.ignored unmatched with
    | .error f => (.error (.fault f), s)
    | .ok _ => (.ok (.assigned unmatched (s.values refs)), s)

/-- The session with an output at the place where a solver would leave it. -/
def leave (output : Option Entry) (s : Session) : Session :=
  { s with files := s.files.place [Solver.outputName] output }

/-- Reads an output, which is left where a solver would leave it, for decision variables. -/
def interpret (output : Option Entry) (decision : List Reference) (s : Session) : Except Stop Answer × Session :=
  match s.namedRefs decision with
  | .error (.unbound r) => (.error (.unbound r), s)
  | .error stop => (.error stop, s.leave output)
  | .ok refs =>
    let s := s.leave output
    let i := Solution.interpret s.store refs output
    let s := { s with store := i.store }
    (.ok (.interpreted (Solution.firstLine output) i.status (s.values refs)), s)

/-- Evaluates a model. -/
def evaluate (reference : Reference) (solver : String) (config : Option Config)
    (settings : List (String × String)) (chance : Solver.Chance) (s : Session) : Except Stop Answer × Session :=
  match s.findModel "decision" reference with
  | .error stop => (.error stop, s)
  | .ok m =>
    let problem : Solver.Problem := ⟨s.source m, m.model.decision⟩
    let configured :=
      match config with
      | some config => (.ok config, [])
      | none => Config.resolve ⟨settings, s.files⟩
    let w : Solver.World := { store := s.store, files := s.files }
    let (result, w) := w.evaluate configured problem solver chance
    let s := { s with store := w.store, files := w.files }
    (.ok (.evaluated result w.calls (s.values m.model.decision) (Log.transcript w.records)), s)

/-! ## All commands -/

/-- Carries out a command. -/
def perform (c : Command) (s : Session) : Except Stop Answer × Session :=
  match c with
  | .declare handle d => s.declare handle d
  | .relate handle operator operands => s.relate handle operator operands
  | .compose handle decision parameter constraints objective objectiveVariable =>
    s.compose handle decision parameter constraints objective objectiveVariable
  | .provide path entry => (.ok .nothing, { s with files := s.files.provide path entry })
  | .load handle origin => s.bindModel handle (Model.ofOrigin s.files origin s.store)
  | .lookUp model name => (s.lookUp model name, s)
  | .compare a b => ((s.isSame a b).map .truth, s)
  | .inspect r => ((s.findRef "name" r).map s.view, s)
  | .setValue r value => s.setValue r value
  | .serialize parameter decision constraints => (s.serialize parameter decision constraints, s)
  | .render m => (s.consult "parameter" m fun m => (s.source m).map .text, s)
  | .solveItem m => (s.consult "objective" m fun m => .ok (.text (Program.solveItem s.store m.model)), s)
  | .toJson m => (s.consult "parameter" m fun m => do return .text (← (← m.proper "operator").toJson s.store), s)
  | .toYaml m => (s.consult "parameter" m fun m => do return .text (← (← m.proper "operator").toYaml s.store), s)
  | .toData m => (s.consult "parameter" m fun m => do return .data ((← m.proper "operator").toValue s.store), s)
  | .save m path => s.save m path
  | .assign solution decision => s.assign solution decision
  | .interpret output decision => s.interpret output decision
  | .list references =>
    let listed : Except Stop Answer := do
      let given ← s.findRefs references
      let text ← (Solver.listingOfGiven s.store given).mapError .fault
      return .text text
    (listed, s)
  | .evaluate model solver config settings chance => s.evaluate model solver config settings chance

/-- Carries out commands one after the other. -/
def performAll : List Command → Session → List (Except Stop Answer) × Session
  | [], s => ([], s)
  | c :: rest, s =>
    let (answer, s) := s.perform c
    let (answers, s) := performAll rest s
    (answer :: answers, s)

end Session

end ZincModel
