import ZincModel.Log.Record
import ZincModel.Model.Document
import ZincModel.Program.Literal

/-!
# Programs

The MiniZinc program for a model: a line for each parameter, each decision variable and each constraint, in
this order, and the solve item.
-/

namespace ZincModel.Program

open Text

/-- A line. -/
def line (s : List Char) : List Char := s ++ ['\n']

/-- The declaration of a parameter, such as `int: n = 3;` (`_parameter_line`). -/
def parameterLine (v : Variable) : Except Fault (List Char) := do
  let value ← literal v.type v.value
  return v.type.spelling.toList ++ ": ".toList ++ v.name.toList ++ " = ".toList ++ value ++ [';']

/-- The bounds in a domain: two members of a value. -/
def boundsOf (domain : Value) : Except Fault (Value × Value) := do
  let members ←
    match domain.members with
    | .error (.shape (.notIterable kind)) => throw (.shape (.notUnpackable kind))
    | r => r
  match members with
  | [lo, hi] => return (lo, hi)
  | _ :: _ :: _ :: _ => throw (.content .tooManyParts)
  | members => throw (.content (.tooFewParts members.length))

/-- The declaration of a decision variable, such as `var 1..3: x;` (`_decision_line`). -/
def decisionLine (v : Variable) : Except Fault (List Char) := do
  let (lo, hi) ← boundsOf v.domain
  let lo ← literal v.type lo
  let hi ← literal v.type hi
  return "var ".toList ++ lo ++ "..".toList ++ hi ++ ": ".toList ++ v.name.toList ++ [';']

/-- A constraint, such as `constraint x != y;` (`_constraint_line`). -/
def constraintLine (s : Store) (c : Constraint) : List Char :=
  "constraint ".toList ++ (s.name c.left).toList ++ ' ' :: c.operator.spelling.toList ++
    ' ' :: (s.name c.right).toList ++ [';']

/-- The lines of a program without the solve item, for what is handed over (`serialize`). -/
def declarationsOfGiven (s : Store) (parameter decision : List (Given Ref))
    (constraints : List (Given Constraint)) : Except Fault (List Char) := do
  let parameters ← parameter.mapM fun g => do
    let r ← g.require "type"
    parameterLine (s.get r)
  let decisions ← decision.mapM fun g => do
    let r ← g.require "domain"
    decisionLine (s.get r)
  let constraints ← constraints.mapM fun g => do
    let c ← g.require "left"
    return constraintLine s c
  return (parameters ++ decisions ++ constraints).flatMap line

/-- The lines of a program without the solve item. -/
def declarations (s : Store) (parameter decision : List Ref) (constraints : List Constraint) :
    Except Fault (List Char) :=
  declarationsOfGiven s (parameter.map .proper) (decision.map .proper) (constraints.map .proper)

/-- The solve item of a model (`solve_item`). -/
def solveItem (s : Store) (m : Model) : List Char :=
  match m.objectiveVariable with
  | none => "solve satisfy;".toList
  | some r => "solve ".toList ++ m.objective.spelling.toList ++ ' ' :: (s.name r).toList ++ [';']

/-- The program for a model (`render_model`). -/
def source (s : Store) (m : Model) : Except Fault (List Char) := do
  let declarations ← declarations s m.parameter m.decision m.constraints
  return declarations ++ line (solveItem s m)

/-- What is noted when a program has been generated. -/
def generated (source : List Char) : Log.Record :=
  ⟨.debug, "mznbridge.backends.minizinc_generator", "Generated MiniZinc code:\n".toList ++ source⟩

end ZincModel.Program
