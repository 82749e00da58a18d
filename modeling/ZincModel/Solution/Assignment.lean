import ZincModel.Log.Record
import ZincModel.Model.Store
import ZincModel.Solution.Reading
import ZincModel.Value.Display

/-!
# Assigning solutions

Where what a solver has written holds a solution, the decision variables get the values under their names. Of
several variables with one name the first one gets the value. Keys that no variable is named by are left over.
-/

namespace ZincModel.Solution

/-- What the output of a solver says. -/
inductive Status where
  | satisfied
  | unsatisfiable
  | unknown
  deriving DecidableEq, Repr

def Status.spelling : Status → String
  | satisfied => "satisfied"
  | unsatisfiable => "unsatisfiable"
  | unknown => "unknown"

/-- The first variable with a name. -/
def named? (s : Store) (decision : List Ref) : Value → Option Ref
  | .str name => decision.find? fun r => s.name r == name
  | _ => none

/-- Gives the variables their values (`assign_values`). -/
def assign (s : Store) (decision : List Ref) (solution : List (Value × Value)) : Store :=
  solution.foldl (fun s' e => assignEntry (named? s decision e.1) e.2 s') s
where
  assignEntry (r : Option Ref) (value : Value) (s : Store) : Store :=
    match r with
    | some r => s.setValue r value
    | none => s

/-- The keys that no variable is named by. -/
def unmatched (s : Store) (decision : List Ref) (solution : List (Value × Value)) : List Value :=
  (solution.map (·.1)).filter fun key => (named? s decision key).isNone

/-- The texts among the keys; a fault at the first key that is none. -/
def keyTexts (position : Nat) : List Value → Except Fault (List (List Char))
  | [] => .ok []
  | .str key :: rest => (keyTexts (position + 1) rest).map (key.toList :: ·)
  | key :: _ => .error (.shape (.notText position key.fullKind))

/-- What is noted about the keys that are left over. -/
def ignored (keys : List Value) : Except Fault (List Log.Record) :=
  if keys.isEmpty then .ok []
  else
    (keyTexts 0 keys).map fun keys =>
      [⟨.debug, "mznbridge.results",
        "Ignoring result keys with no matching variable: ".toList ++ Text.join [',', ' '] keys⟩]

/-- What the interpretation of an output comes to: the status or a fault, the variables then, and what was
noted. -/
structure Interpretation where
  status : Except Fault Status
  store : Store
  records : List Log.Record

/-- Reads what a solver has left, and gives the decision variables the values of its solution (`interpret_output`). -/
def interpret (s : Store) (decision : List Ref) (artifact : Option Entry) : Interpretation :=
  match parse (artifactText artifact) with
  | .error f => ⟨.error f, s, []⟩
  | .ok (some solution) =>
    let s' := assign s decision solution
    match ignored (unmatched s decision solution) with
    | .error f => ⟨.error f, s', []⟩
    | .ok records => ⟨.ok .satisfied, s', records⟩
  | .ok none =>
    if Text.occurs unsatMarker (firstLine artifact) then ⟨.ok .unsatisfiable, s, []⟩
    else ⟨.ok .unknown, s, []⟩

end ZincModel.Solution
