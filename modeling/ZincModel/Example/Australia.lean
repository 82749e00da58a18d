import ZincModel.Model.Basic

/-!
# The map of Australia

A model that colours the states of Australia so that neighbours differ. The number of colours is both the
value of a parameter and the upper bound of every state.
-/

namespace ZincModel.Example

/-- The states. -/
def states : List String := ["wa", "nt", "sa", "q", "nsw", "v", "t"]

/-- The pairs of states with a common border. -/
def borders : List (String × String) :=
  [("wa", "nt"), ("wa", "sa"), ("nt", "sa"), ("nt", "q"), ("sa", "q"), ("sa", "nsw"), ("sa", "v"),
   ("q", "nsw"), ("nsw", "v")]

/-- Declares variables one after the other, up to the first fault. -/
def declareEach : List Declaration → Store → Except Fault (List Ref) × Store
  | [], s => (.ok [], s)
  | d :: rest, s =>
    match s.declare d with
    | (.error f, s) => (.error f, s)
    | (.ok r, s) =>
      match declareEach rest s with
      | (.error f, s) => (.error f, s)
      | (.ok rs, s) => (.ok (r :: rs), s)

/-- The parameter and the states, as they are declared. -/
def declarations (colours : Value) : List Declaration :=
  { type := .str "int", kind := .str "parameter", value := colours, name := .str "nc" } ::
    states.map fun name =>
      { type := .str "int", kind := .str "decision", domain := .ofTuple [.int 1, colours], name := .str name }

/-- The constraint that two states differ. -/
def differ (refs : List Ref) (border : String × String) : Except Fault Constraint :=
  let ref (name : String) : Given Ref :=
    match refs[states.idxOf name]? with
    | some r => .proper r
    | none => .other "NoneType"
  Constraint.make (.str "!=") [ref border.1, ref border.2]

/-- The model of the map with a number of colours (`build_australia_model`). -/
def australia (colours : Value) (s : Store) : Except Fault Model × Store :=
  match declareEach (declarations colours) s with
  | (.error f, s) => (.error f, s)
  | (.ok refs, s) =>
    let model : Except Fault Model := do
      let stateRefs := refs.drop 1
      let constraints ← borders.mapM (differ stateRefs)
      Model.make s stateRefs (refs.take 1) constraints (.str "satisfy") none
    (model, s)

end ZincModel.Example
