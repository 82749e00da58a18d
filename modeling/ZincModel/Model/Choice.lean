import ZincModel.Value.Display

/-!
# Closed choices

The types and roles of variables, the relations of constraints and the goals of models, each with its spelling.
Where a model is given as data a choice is made by its spelling.
-/

namespace ZincModel

/-- The choice that a value spells (`_coerce`). -/
def choose {α : Type} (what : String) (all : List α) (spelling : α → String) (v : Value) : Except Fault α :=
  let chosen :=
    match v with
    | .str s => all.find? fun a => spelling a == s
    | _ => none
  match chosen with
  | some a => .ok a
  | none => do
    let shown ← v.displayed
    throw (.model (.unknownChoice what shown (all.map spelling)))

/-- The types of variables. -/
inductive VariableType where
  | int
  | float
  | bool
  | string
  deriving DecidableEq, Repr, Inhabited

def VariableType.spelling : VariableType → String
  | int => "int"
  | float => "float"
  | bool => "bool"
  | string => "string"

def VariableType.ofValue (v : Value) : Except Fault VariableType :=
  choose "variable type" [.int, .float, .bool, .string] spelling v

/-- What a variable is in a model: given, or to be found by the solver. -/
inductive Kind where
  | parameter
  | decision
  deriving DecidableEq, Repr

def Kind.spelling : Kind → String
  | parameter => "parameter"
  | decision => "decision"

def Kind.ofValue (v : Value) : Except Fault Kind :=
  choose "variable kind" [.parameter, .decision] spelling v

/-- The relations between two variables. -/
inductive Operator where
  | equal
  | notEqual
  | less
  | lessOrEqual
  | greater
  | greaterOrEqual
  deriving DecidableEq, Repr

def Operator.spelling : Operator → String
  | equal => "="
  | notEqual => "!="
  | less => "<"
  | lessOrEqual => "<="
  | greater => ">"
  | greaterOrEqual => ">="

def Operator.ofValue (v : Value) : Except Fault Operator :=
  choose "constraint operator" [.equal, .notEqual, .less, .lessOrEqual, .greater, .greaterOrEqual] spelling v

/-- The goals of a model. -/
inductive Objective where
  | satisfy
  | maximize
  | minimize
  deriving DecidableEq, Repr

def Objective.spelling : Objective → String
  | satisfy => "satisfy"
  | maximize => "maximize"
  | minimize => "minimize"

def Objective.ofValue (v : Value) : Except Fault Objective :=
  choose "objective" [.satisfy, .maximize, .minimize] spelling v

end ZincModel
