import ZincModel.Model.Choice
import ZincModel.Value.Order

/-!
# Variables

A variable has a type and a name. A parameter has a value from the start; a decision variable has bounds, and
no value before a solution is found. A variable that is declared without name gets the name `var1`, `var2` and
so on, where the number goes up even if the declaration fails afterwards.
-/

namespace ZincModel

/-- What a variable is, with what only that has. A parameter keeps a domain it is given, but has no use for
it. -/
inductive Role where
  | parameter (domain : Value)
  | decision (lo hi : Value)
  deriving Inhabited

/-- A variable of a model. -/
structure Variable where
  name : String
  type : VariableType
  role : Role
  /-- Null for a decision variable that has not been solved. -/
  value : Value
  deriving Inhabited

namespace Variable

def kind (v : Variable) : Kind :=
  match v.role with
  | .parameter _ => .parameter
  | .decision .. => .decision

def isDecision (v : Variable) : Bool := v.kind == .decision

/-- The domain as a value: the bounds of a decision variable are a tuple. -/
def domain (v : Variable) : Value :=
  match v.role with
  | .parameter domain => domain
  | .decision lo hi => .ofTuple [lo, hi]

end Variable

/-- What a variable is declared with. Null stands for what is left out. -/
structure Declaration where
  type : Value
  kind : Value
  value : Value := .null
  domain : Value := .null
  name : Value := .null

namespace Declaration

/-- The bounds in a domain: a list or tuple of two. -/
def bounds? (domain : Value) : Option (Value × Value) :=
  match domain.opened with
  | .list _ [lo, hi] => some (lo, hi)
  | .tuple _ [lo, hi] => some (lo, hi)
  | _ => none

/-- The bounds of a decision variable; the lower one must not be above the upper one. -/
def checkBounds (name : String) (domain : Value) : Except Fault (Value × Value) :=
  match bounds? domain with
  | none => do
    let shown ← domain.displayed
    throw (.model (.badDomain name shown))
  | some (lo, hi) =>
    match hi.less lo with
    | .error _ => do
      let shownLo ← lo.displayed
      let shownHi ← hi.displayed
      throw (.model (.incomparableBounds name shownLo shownHi))
    | .ok true => do
      let textLo ← lo.textString
      let textHi ← hi.textString
      throw (.model (.emptyDomain name textLo textHi))
    | .ok false => return (lo, hi)

/-- The variable with a name, if value and domain fit its kind. -/
def checkKind (d : Declaration) (type : VariableType) (kind : Kind) (name : String) : Except Fault Variable :=
  match kind with
  | .parameter =>
    match d.value with
    | .null => .error (.model (.parameterWithoutValue name))
    | value => .ok ⟨name, type, .parameter d.domain, value⟩
  | .decision =>
    match d.value with
    | .null => do
      let (lo, hi) ← checkBounds name d.domain
      return ⟨name, type, .decision lo hi, .null⟩
    | _ => .error (.model (.decisionWithValue name))

/-- The name that is made up for the `n`-th variable without one. -/
def autoName (n : Nat) : String := "var" ++ toString n

/-- The declared variable, and the number of the next name to make up (`Variable.__post_init__`). -/
def toVariable (d : Declaration) (nextName : Nat) : Except Fault Variable × Nat :=
  match VariableType.ofValue d.type with
  | .error f => (.error f, nextName)
  | .ok type =>
    match Kind.ofValue d.kind with
    | .error f => (.error f, nextName)
    | .ok kind =>
      match d.name with
      | .null => (d.checkKind type kind (autoName nextName), nextName + 1)
      | .str name =>
        if name = "" then (.error (.model (.badName (shown ""))), nextName)
        else (d.checkKind type kind name, nextName)
      | other => (other.displayed >>= fun shown => .error (.model (.badName shown)), nextName)

end Declaration

end ZincModel
