import ZincModel.Model.Variable

/-!
# Stores of variables

Constraints and models refer to variables, which they share: a value that is set through one of them is seen
by all. A store holds the variables; a reference is the number of variables declared before. A store also
counts the names that were made up and the numbers that values were given, so that neither is used twice.
-/

namespace ZincModel

/-- A reference to a variable. -/
abbrev Ref := Nat

/-- The variables that have been declared. -/
structure Store where
  declared : Array Variable := #[]
  /-- The number in the next name that is made up. -/
  nextName : Nat := 1
  /-- The next unused number of values that are shared; those before the first one are taken by constants of the
  document formats. -/
  nextNumber : Nat := 2

namespace Store

/-- The variable that a reference stands for. -/
def get (s : Store) (r : Ref) : Variable := s.declared.getD r default

/-- The name of a variable (`Variable.get_name`). -/
def name (s : Store) (r : Ref) : String := (s.get r).name

/-- Declares a variable. -/
def declare (s : Store) (d : Declaration) : Except Fault Ref × Store :=
  match d.toVariable s.nextName with
  | (.error f, nextName) => (.error f, { s with nextName := nextName })
  | (.ok v, nextName) =>
    (.ok s.declared.size, { s with declared := s.declared.push v, nextName := nextName })

/-- Gives a variable another value. -/
def setValue (s : Store) (r : Ref) (value : Value) : Store :=
  { s with declared := s.declared.modify r fun v => { v with value := value } }

end Store

/-- What is handed over where an `α` is expected: one, or something else, of which the kind is known. -/
inductive Given (α : Type) where
  | proper (a : α)
  | other (kind : String)

/-- The `α` that was handed over; a fault, when its field is asked for, if it is none. -/
def Given.require {α : Type} (field : String) : Given α → Except Fault α
  | proper a => .ok a
  | other kind => .error (.missingField kind field)

end ZincModel
