import ZincModel.Calendar.Moment
import ZincModel.Number.Double

/-!
# Values

The values that models hold and that documents are made of. A model accepts a value of any kind wherever the
kind is not checked, so one type holds them all.

A value that was written once in a document and referred to again has a number, which is the same at all places
where it stands: there is only one of it. Whoever writes the document again can then write it once, and a number
that is not equal to itself is still the same one. Numbers are no part of what a value is: `same` compares values
without them.

A container that was written inside itself holds a `loop` at the inner place. A value is closed: every loop in it
belongs to a container around it. What a container holds is therefore asked for by `opened`, which puts the
container itself in place of its loops.
-/

namespace ZincModel

/-- What tells a container from others with the same content. -/
structure Label where
  number : Nat
  /-- A loop stands somewhere in it. -/
  hasLoop : Bool := false
  deriving DecidableEq, Repr

/-- A value. -/
inductive Value where
  | null
  | bool (b : Bool)
  | int (n : Int)
  | float (number : Option Nat) (x : Double)
  | str (s : String)
  | bytes (bs : List UInt8)
  | date (number : Option Nat) (d : Date)
  | moment (number : Option Nat) (m : Moment)
  | list (label : Option Label) (items : List Value)
  | tuple (label : Option Label) (items : List Value)
  | set (label : Option Label) (items : List Value)
  | dict (label : Option Label) (entries : List (Value × Value))
  | loop (number : Nat) (isDict : Bool)
  deriving Inhabited

namespace Value

/-- A number that stands once. -/
abbrev ofDouble (x : Double) : Value := float none x

/-- A list that is not shared. -/
abbrev ofList (items : List Value) : Value := list none items

/-- A tuple that is not shared. -/
abbrev ofTuple (items : List Value) : Value := tuple none items

/-- A dictionary that is not shared. -/
abbrev ofEntries (entries : List (Value × Value)) : Value := dict none entries

/-- The name of the kind of a value. -/
def kind : Value → String
  | null => "NoneType"
  | bool _ => "bool"
  | int _ => "int"
  | float .. => "float"
  | str _ => "str"
  | bytes _ => "bytes"
  | date .. => "date"
  | moment .. => "datetime"
  | list .. => "list"
  | tuple .. => "tuple"
  | set .. => "set"
  | dict .. => "dict"
  | loop _ isDict => if isDict then "dict" else "list"

/-- The name of the kind of a value together with the library it belongs to. -/
def fullKind : Value → String
  | date .. => "datetime.date"
  | moment .. => "datetime.datetime"
  | v => v.kind

/-- The value counts as true in a condition: it is neither null nor false, zero or empty. -/
def isTrue : Value → Bool
  | null => false
  | bool b => b
  | int n => n != 0
  | float _ x => !x.isZero
  | str s => s != ""
  | bytes bs => !bs.isEmpty
  | date .. => true
  | moment .. => true
  | list _ items => !items.isEmpty
  | tuple _ items => !items.isEmpty
  | set _ items => !items.isEmpty
  | dict _ entries => !entries.isEmpty
  | loop .. => true

/-- The number of a value that may stand at several places. -/
def number? : Value → Option Nat
  | float n _ => n
  | date n _ => n
  | moment n _ => n
  | list l _ => l.map Label.number
  | tuple l _ => l.map Label.number
  | set l _ => l.map Label.number
  | dict l _ => l.map Label.number
  | loop n _ => some n
  | _ => none

/-- The two values are one. -/
def isOne (a b : Value) : Bool :=
  match a.number?, b.number? with
  | some m, some n => m == n
  | _, _ => false

mutual

/-- The two values are the same in every respect but their numbers. -/
def same : Value → Value → Bool
  | null, null => true
  | bool a, bool b => a == b
  | int a, int b => a == b
  | float _ a, float _ b => a == b
  | str a, str b => a == b
  | bytes a, bytes b => a == b
  | date _ a, date _ b => a == b
  | moment _ a, moment _ b => a == b
  | list _ a, list _ b => sameAll a b
  | tuple _ a, tuple _ b => sameAll a b
  | set _ a, set _ b => sameAll a b
  | dict _ a, dict _ b => sameEntries a b
  | loop _ a, loop _ b => a == b
  | _, _ => false

def sameAll : List Value → List Value → Bool
  | [], [] => true
  | a :: as, b :: bs => same a b && sameAll as bs
  | _, _ => false

def sameEntries : List (Value × Value) → List (Value × Value) → Bool
  | [], [] => true
  | (k, a) :: as, (l, b) :: bs => same k l && same a b && sameEntries as bs
  | _, _ => false

end

/-! ## Loops -/

/-- What a container with this label holds may have to be changed where loops to the container `n` are tied: it
has loops, and is not that container again. -/
def Label.isOpen (n : Nat) (l : Option Label) : Bool := l.any fun l => l.hasLoop && l.number != n

mutual

/-- The value with `whole` in the place of every loop to the container `n`. -/
def tie (n : Nat) (whole : Value) : Value → Value
  | loop m isDict => if m = n then whole else loop m isDict
  | list l items => if Label.isOpen n l then list l (tieAll n whole items) else list l items
  | tuple l items => if Label.isOpen n l then tuple l (tieAll n whole items) else tuple l items
  | dict l entries => if Label.isOpen n l then dict l (tieEntries n whole entries) else dict l entries
  | v => v
termination_by structural x => x

def tieAll (n : Nat) (whole : Value) : List Value → List Value
  | [] => []
  | v :: rest => tie n whole v :: tieAll n whole rest
termination_by structural x => x

def tieEntries (n : Nat) (whole : Value) : List (Value × Value) → List (Value × Value)
  | [] => []
  | (k, v) :: rest => (k, tie n whole v) :: tieEntries n whole rest
termination_by structural x => x

end

/-- The value; what it holds, if it is a container, is closed too. -/
def opened (v : Value) : Value :=
  match v with
  | list (some l) items => if l.hasLoop then list (some l) (tieAll l.number v items) else v
  | tuple (some l) items => if l.hasLoop then tuple (some l) (tieAll l.number v items) else v
  | dict (some l) entries => if l.hasLoop then dict (some l) (tieEntries l.number v entries) else v
  | v => v

/-! ## Keys -/

/-- The value under a text key. -/
def lookup (key : String) : List (Value × Value) → Option Value
  | [] => none
  | (str k, v) :: rest => if k = key then some v else lookup key rest
  | _ :: rest => lookup key rest

/-- The kind of the first part of a value that keeps the value from being a key. -/
def unhashable? : Value → Option String
  | list .. => some "list"
  | set .. => some "set"
  | dict .. => some "dict"
  | loop _ isDict => some (if isDict then "dict" else "list")
  | tuple _ items => go items
  | _ => none
where
  go : List Value → Option String
    | [] => none
    | v :: rest => (unhashable? v).orElse fun _ => go rest

end Value

end ZincModel
