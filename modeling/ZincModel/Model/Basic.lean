import ZincModel.Model.Store

/-!
# Models

A model has decision variables, parameters, constraints between two of its variables each, and an objective.
The variables of a model have different names, and constraints and objective refer to no others.
-/

namespace ZincModel

/-- A relation between two variables. -/
structure Constraint where
  operator : Operator
  left : Ref
  right : Ref
  deriving DecidableEq

namespace Constraint

/-- The variables of a constraint. -/
def operands (c : Constraint) : List Ref := [c.left, c.right]

/-- The constraint with a relation between what is handed over, if that is two variables
(`Constraint.__post_init__`). -/
def make (operator : Value) (operands : List (Given Ref)) : Except Fault Constraint := do
  let operator ← Operator.ofValue operator
  match operands with
  | [left, right] =>
    let left ← isVariable left
    let right ← isVariable right
    return ⟨operator, left, right⟩
  | _ => throw (.model (.operandCount operator.spelling operands.length))
where
  isVariable : Given Ref → Except Fault Ref
    | .proper r => .ok r
    | .other kind => .error (.model (.notVariable kind))

end Constraint

/-- What is handed over among the constraints of a model and has variables. -/
inductive Clause where
  | constraint (c : Constraint)
  /-- Something else that has these variables. It is checked like a constraint, but is none. -/
  | other (operands : List Ref)

namespace Clause

/-- The variables of what is handed over. -/
def operands : Clause → List Ref
  | constraint c => c.operands
  | other operands => operands

/-- The constraint that is handed over, if it is one. -/
def constraint? : Clause → Option Constraint
  | constraint c => some c
  | other _ => none

end Clause

/-- A model of a constraint problem. -/
structure Model where
  decision : List Ref
  parameter : List Ref
  constraints : List Constraint
  objective : Objective
  objectiveVariable : Option Ref
  deriving DecidableEq

namespace Model

/-- All variables: first the parameters, then the decision variables (`Model.variables`). -/
def members (m : Model) : List Ref := m.parameter ++ m.decision

/-- The variable with a name (`Model.get_variable`). -/
def find? (s : Store) (m : Model) (name : String) : Option Ref := m.members.find? fun r => s.name r == name

/-! ## The rules of a model -/

/-- The variable may be listed as a decision variable. -/
def checkDecision (s : Store) (r : Ref) : Except Fault Unit :=
  if (s.get r).kind = .decision then .ok () else .error (.model (.notDecision (s.name r)))

/-- The variable may be listed as a parameter. -/
def checkParameter (s : Store) (r : Ref) : Except Fault Unit :=
  if (s.get r).kind = .parameter then .ok () else .error (.model (.notParameter (s.name r)))

/-- The names differ from each other and from those `before`. -/
def checkNames (before : List String) : List String → Except Fault Unit
  | [] => .ok ()
  | name :: rest => if before.contains name then .error (.duplicateName name) else checkNames (name :: before) rest

/-- What is listed as a constraint refers to members only. -/
def checkOperands (s : Store) (members : List Ref) (c : Clause) : Except Fault Unit :=
  c.operands.forM fun r =>
    if members.contains r then .ok () else .error (.model (.foreignOperand (s.name r)))

/-- The objective has a variable, a member, if it needs one. -/
def checkObjective (s : Store) (members : List Ref) (objective : Objective) (r : Option (Given Ref)) :
    Except Fault (Option Ref) :=
  match objective, r with
  | .satisfy, none => .ok none
  | .satisfy, some _ => .error (.model .surplusObjectiveVariable)
  | objective, none => .error (.model (.missingObjectiveVariable objective.spelling))
  | _, some r => do
    let r ← r.require "name"
    if members.contains r then return some r else throw (.model (.foreignObjectiveVariable (s.name r)))

/-- The model of what is handed over (`Model.__post_init__`). The parts are checked in turn: the objective, decision
variables, parameters, names, constraints, and the variable of the objective. -/
def ofGiven (s : Store) (decision parameter : List (Given Ref)) (clauses : List (Given Clause))
    (objective : Value) (objectiveVariable : Option (Given Ref)) : Except Fault Model := do
  let objective ← Objective.ofValue objective
  let decision ← decision.mapM (checked "kind" (checkDecision s))
  let parameter ← parameter.mapM (checked "kind" (checkParameter s))
  let members := parameter ++ decision
  checkNames [] (members.map s.name)
  let clauses ← clauses.mapM (checked "variables" (checkOperands s members))
  let objectiveVariable ← checkObjective s members objective objectiveVariable
  return ⟨decision, parameter, clauses.filterMap Clause.constraint?, objective, objectiveVariable⟩
where
  checked {α : Type} (field : String) (check : α → Except Fault Unit) (g : Given α) : Except Fault α := do
    let a ← g.require field
    check a
    return a

/-- The model with the given variables and constraints, if it keeps the rules. -/
def make (s : Store) (decision parameter : List Ref) (constraints : List Constraint) (objective : Value)
    (objectiveVariable : Option Ref) : Except Fault Model :=
  ofGiven s (decision.map .proper) (parameter.map .proper) (constraints.map fun c => .proper (.constraint c))
    objective (objectiveVariable.map .proper)

end Model

end ZincModel
