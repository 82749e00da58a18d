import ZincModel.Proofs.Failure
import ZincModel.Proofs.Model.Restoring

/-!
# What models are made of

`Model.make` checks the parts of a model in a fixed order: the roles of the variables, their names, the constraints
and the objective. Each check that fails has a complaint of its own, and only repeated names have one of another kind
(`Rejection`). Which parts are refused, and how, is therefore told from the parts alone (`make_verdict`).
-/

namespace ZincModel.Model

open Except (Ends)

/-! ## The complaints of the checks -/

/-- The fault is about a rule for models other than that names differ. -/
inductive IsBreach : Fault → Prop
  | mk (cause : ModelFault) : IsBreach (.model cause)

section Checks

variable {s : Store} {members : List Ref}

theorem checkDecision_ends (s : Store) (r : Ref) : Ends IsBreach (fun _ => True) (checkDecision s r) := by
  unfold checkDecision
  split
  · exact .ok trivial
  · exact .error ⟨_⟩

theorem checkParameter_ends (s : Store) (r : Ref) : Ends IsBreach (fun _ => True) (checkParameter s r) := by
  unfold checkParameter
  split
  · exact .ok trivial
  · exact .error ⟨_⟩

theorem checkNames_ends (before names : List String) :
    Ends (fun f => ∃ name, f = .duplicateName name) (fun _ => True) (checkNames before names) := by
  induction names generalizing before with
  | nil => exact .ok trivial
  | cons name names ih =>
    rw [checkNames]
    split
    · exact .error ⟨name, rfl⟩
    · exact ih _

theorem checkOperands_ends (s : Store) (members : List Ref) (c : Clause) :
    Ends IsBreach (fun _ => True) (checkOperands s members c) := by
  apply Ends.forM
  intro r _
  split
  · exact .ok trivial
  · exact .error ⟨_⟩

theorem checkObjective_ends (s : Store) (members : List Ref) (o : Objective) (r? : Option Ref) :
    Ends IsBreach (fun _ => True) (checkObjective s members o (r?.map .proper)) := by
  have named (r : Ref) : Ends IsBreach (fun _ => True) (do
      let r ← (Given.proper r).require "name"
      if members.contains r then return some r
      else throw (Fault.model (.foreignObjectiveVariable (s.name r))) : Except Fault (Option Ref)) := by
    simp only [Given.require, Except.ok_bind]
    split
    · exact .ok trivial
    · exact .error ⟨_⟩
  cases o with
  | satisfy =>
    cases r? with
    | none => exact .ok trivial
    | some r => exact .error ⟨_⟩
  | maximize | minimize =>
    cases r? with
    | none => exact .error ⟨_⟩
    | some r => exact named r

/-- A row of parts that are checked in turn: all pass, or the fault is that of one of them. -/
theorem mapM_checked_ends {α : Type} {field : String} {check : α → Except Fault Unit} {as : List α}
    {F : Fault → Prop} (h : ∀ a ∈ as, Ends F (fun _ => True) (check a)) :
    Ends F (fun bs => bs = as ∧ ∀ a ∈ as, check a = .ok ())
      ((as.map Given.proper).mapM (ofGiven.checked field check)) := by
  have each : Ends F (fun _ => True) ((as.map Given.proper).mapM (ofGiven.checked field check)) := by
    rw [List.mapM_map]
    refine (Ends.mapM (Q := fun _ => True) fun a ha => ?_).strengthen fun _ _ => trivial
    exact (h a ha).bind fun _ _ => .ok trivial
  exact each.strengthen fun bs made => mapM_checked_proper.1 made

end Checks

/-! ## Admission -/

section Parts

variable (s : Store) (decision parameter : List Ref) (constraints : List Constraint) (o : Objective) (r? : Option Ref)

/-- The variables are listed by their roles. -/
def HaveRoles : Prop :=
  (∀ r ∈ decision, (s.get r).kind = .decision) ∧ ∀ r ∈ parameter, (s.get r).kind = .parameter

/-- No name occurs twice. -/
def HaveNames : Prop := ((parameter ++ decision).map s.name).Nodup

/-- The constraints are between variables that are listed. -/
def HaveOperands : Prop := ∀ c ∈ constraints, ∀ r ∈ c.operands, r ∈ parameter ++ decision

/-- The objective has no variable if it does not take one, and one that is listed if it does. -/
def HasObjective : Prop :=
  match o with
  | .satisfy => r? = none
  | _ => ∃ r ∈ parameter ++ decision, r? = some r

/-- Why no model is made of the parts. The roles come first, then the names. -/
inductive Rejection : Fault → Prop
  | role {f : Fault} : IsBreach f → ¬HaveRoles s decision parameter → Rejection f
  | name {name : String} : HaveRoles s decision parameter → ¬HaveNames s decision parameter →
    Rejection (.duplicateName name)
  | reference {f : Fault} : IsBreach f → HaveRoles s decision parameter → HaveNames s decision parameter →
    ¬(HaveOperands decision parameter constraints ∧ HasObjective decision parameter o r?) → Rejection f

variable {decision parameter constraints o r?}

theorem hasObjective_iff : HasObjective decision parameter o r? ↔
    (r? = none ↔ o = .satisfy) ∧ ∀ r, r? = some r → r ∈ parameter ++ decision := by
  unfold HasObjective
  cases o <;> cases r? <;> simp

/-! ### The checks in their order -/

/-- A list of variables that all must have one role. -/
theorem listed_ends {refs : List Ref} {k : Kind} {check : Ref → Except Fault Unit}
    (breach : ∀ r, Ends IsBreach (fun _ => True) (check r)) (passes : ∀ r, check r = .ok () ↔ (s.get r).kind = k)
    (needed : HaveRoles s decision parameter → ∀ r ∈ refs, (s.get r).kind = k) :
    Ends (Rejection s decision parameter constraints o r?) (fun rs => rs = refs ∧ ∀ r ∈ refs, (s.get r).kind = k)
      ((refs.map Given.proper).mapM (ofGiven.checked "kind" check)) := by
  refine (mapM_checked_ends ?_).mono (fun _ => id) ?_
  · intro r hr
    apply (breach r).explain
    intro f failed breach
    apply Rejection.role breach
    intro roles
    rw [(passes r).2 (needed roles r hr)] at failed
    cases failed
  · rintro rs ⟨same, passed⟩
    exact ⟨same, fun r hr => (passes r).1 (passed r hr)⟩

variable {s} (roles : HaveRoles s decision parameter)

include roles

theorem names_ends :
    Ends (Rejection s decision parameter constraints o r?) (fun _ => HaveNames s decision parameter)
      (checkNames [] ((parameter ++ decision).map s.name)) := by
  apply Ends.strengthen (P := fun _ => True)
  · apply (checkNames_ends _ _).explain
    rintro f failed ⟨name, rfl⟩
    apply Rejection.name roles
    intro names
    rw [checkNames_eq_ok.2 ⟨names, by simp⟩] at failed
    cases failed
  · intro _ passed
    exact (checkNames_eq_ok.1 passed).1

variable (names : HaveNames s decision parameter)

include names

theorem operands_ends :
    Ends (Rejection s decision parameter constraints o r?)
      (fun clauses => clauses = constraints.map Clause.constraint ∧ HaveOperands decision parameter constraints)
      (((constraints.map Clause.constraint).map Given.proper).mapM
        (ofGiven.checked "variables" (checkOperands s (parameter ++ decision)))) := by
  refine (mapM_checked_ends ?_).mono (fun _ => id) ?_
  · intro clause hclause
    apply (checkOperands_ends s _ clause).explain
    intro f failed breach
    apply Rejection.reference breach roles names
    rintro ⟨operands, -⟩
    obtain ⟨c, hc, rfl⟩ := List.mem_map.1 hclause
    rw [checkOperands_eq_ok.2 (operands c hc)] at failed
    cases failed
  · rintro clauses ⟨same, passed⟩
    exact ⟨same, fun c hc => checkOperands_eq_ok.1 (passed _ (List.mem_map_of_mem hc))⟩

theorem objective_ends :
    Ends (Rejection s decision parameter constraints o r?)
      (fun q? => q? = r? ∧ HasObjective decision parameter o r?)
      (checkObjective s (parameter ++ decision) o (r?.map .proper)) := by
  apply Ends.strengthen (P := fun _ => True)
  · apply (checkObjective_ends s _ o r?).explain
    intro f failed breach
    apply Rejection.reference breach roles names
    rintro ⟨-, objective⟩
    rw [checkObjective_eq_ok.2 ⟨rfl, hasObjective_iff.1 objective⟩] at failed
    cases failed
  · intro q? passed
    obtain ⟨same, objective⟩ := checkObjective_eq_ok.1 passed
    exact ⟨same, hasObjective_iff.2 objective⟩

end Parts

/-- The parts are made into a model that consists of them, or they are rejected. -/
theorem make_rejects (s : Store) (decision parameter : List Ref) (constraints : List Constraint) {objective : Value}
    {o : Objective} (known : Objective.ofValue objective = .ok o) (r? : Option Ref) :
    Ends (Rejection s decision parameter constraints o r?)
      (fun m => m = ⟨decision, parameter, constraints, o, r?⟩ ∧ HaveRoles s decision parameter ∧
        HaveNames s decision parameter ∧ HaveOperands decision parameter constraints ∧
        HasObjective decision parameter o r?)
      (make s decision parameter constraints objective r?) := by
  have clauses : (constraints.map fun c => Given.proper (Clause.constraint c)) =
      (constraints.map Clause.constraint).map Given.proper := by
    rw [List.map_map]
    rfl
  rw [make, ofGiven, clauses, known]
  -- the checks in their order, each with what is known from those before it
  refine (listed_ends s (checkDecision_ends s) (fun _ => checkDecision_eq_ok) And.left).bind ?_
  rintro _ ⟨same, decided⟩
  rw [same]
  refine (listed_ends s (checkParameter_ends s) (fun _ => checkParameter_eq_ok) And.right).bind ?_
  rintro _ ⟨same, given⟩
  rw [same]
  have roles : HaveRoles s decision parameter := ⟨decided, given⟩
  refine (names_ends roles).bind fun _ names => ?_
  refine (operands_ends roles names).bind ?_
  rintro _ ⟨same, operands⟩
  rw [same]
  refine (objective_ends roles names).bind ?_
  rintro _ ⟨same, objective⟩
  rw [same, filterMap_constraint]
  exact .ok ⟨rfl, roles, names, operands, objective⟩

/-- Parts are made into a model exactly if they fit together, and the model has them in their order. A name that
occurs twice is complained about exactly if the roles are right, and any other parts that do not fit together break
another rule. -/
theorem make_verdict (s : Store) (decision parameter : List Ref) (constraints : List Constraint) (o : Objective)
    (r? : Option Ref) :
    let result := make s decision parameter constraints (.str o.spelling) r?
    let members := parameter ++ decision
    let roles := (∀ r ∈ decision, (s.get r).kind = .decision) ∧ ∀ r ∈ parameter, (s.get r).kind = .parameter
    let names := (members.map s.name).Nodup
    let operands := ∀ c ∈ constraints, ∀ r ∈ c.operands, r ∈ members
    let objective := if o = .satisfy then r? = none else ∃ r ∈ members, r? = some r
    ((∃ m, result = .ok m) ↔ roles ∧ names ∧ operands ∧ objective) ∧
    (∀ m, result = .ok m → m = ⟨decision, parameter, constraints, o, r?⟩) ∧
    ((∃ name, result = .error (.duplicateName name)) ↔ roles ∧ ¬names) ∧
    ((∃ cause, result = .error (.model cause)) ↔
      ¬(roles ∧ names ∧ operands ∧ objective) ∧ ¬(roles ∧ ¬names)) := by
  intro result members roles names operands objective
  have taken : HasObjective decision parameter o r? ↔ objective := by
    cases o <;> rfl
  have ends := make_rejects s decision parameter constraints (objective_ofValue o) r?
  change Ends _ _ result at ends
  clear_value result
  cases ends with
  | ok made =>
    obtain ⟨rfl, right, apart, inside, takes⟩ := made
    have fit : roles ∧ names ∧ operands ∧ objective := ⟨right, apart, inside, taken.1 takes⟩
    simp [fit]
  | error rejected =>
    cases rejected with
    | role breach wrong =>
      obtain ⟨cause⟩ := breach
      have wrong : ¬roles := wrong
      simp [wrong]
    | name right twice =>
      have right : roles := right
      have twice : ¬names := twice
      simp [right, twice]
    | reference breach right apart foreign =>
      obtain ⟨cause⟩ := breach
      have right : roles := right
      have apart : names := apart
      have foreign : ¬(operands ∧ objective) := fun h => foreign ⟨h.1, taken.2 h.2⟩
      simp [right, apart, foreign]

end ZincModel.Model
