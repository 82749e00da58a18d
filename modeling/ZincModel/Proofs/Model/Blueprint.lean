import ZincModel.Program.Source
import ZincModel.Proofs.Model.Rules

/-!
# Blueprints

What a model says once it is freed of its store: its variables without the values that solvers have found, its
constraints and its objective by the names of variables. The document of a model (`toValue_eq`) and its program
(`source_eq`) can be told from the blueprint, and the blueprint of a constructed model never changes
(`Constructed.blueprint_eq`).
-/

namespace ZincModel

/-- What documents and programs show of a variable: neither the domain of a parameter nor the value of a decision
variable. -/
def Variable.essence (v : Variable) : Variable :=
  match v.role with
  | .parameter _ => { v with role := .parameter .null }
  | .decision .. => { v with value := .null }

namespace Variable

@[simp] theorem essence_name (v : Variable) : v.essence.name = v.name := by
  unfold essence; split <;> rfl

@[simp] theorem essence_type (v : Variable) : v.essence.type = v.type := by
  unfold essence; split <;> rfl

@[simp] theorem essence_kind (v : Variable) : v.essence.kind = v.kind := by
  rcases v with ⟨name, type, role | role, value⟩ <;> rfl

theorem essence_value {v : Variable} (h : v.kind = .parameter) : v.essence.value = v.value := by
  unfold essence; split
  · rfl
  · next e => simp [kind, e] at h

theorem essence_role {v : Variable} (h : v.kind = .decision) : v.essence.role = v.role := by
  unfold essence; split
  · next e => simp [kind, e] at h
  · rfl

theorem essence_value_decision {v : Variable} (h : v.kind = .decision) : v.essence.value = .null := by
  unfold essence; split
  · next e => simp [kind, e] at h
  · rfl

@[simp] theorem essence_essence (v : Variable) : v.essence.essence = v.essence := by
  rcases v with ⟨name, type, role | role, value⟩ <;> rfl

theorem Sound.essence {v : Variable} (h : v.Sound) : v.essence.Sound where
  name := by rw [essence_name]; exact h.name
  value k := by
    rw [essence_kind] at k
    rw [essence_value k]; exact h.value k
  bounds lo hi e := by
    rcases v with ⟨name, type, role | role, value⟩
    · cases e
    · exact h.bounds lo hi e

/-- All that a variable shows stays the same over time. -/
theorem Later.essence {v w : Variable} (h : v.Later w) : w.essence = v.essence := by
  unfold Variable.essence
  rw [h.role]
  split
  · next e => simp [h.name, h.type, h.value (by simp [Variable.kind, e])]
  · simp [h.name, h.type]

end Variable

/-- A model without its store. -/
structure Blueprint where
  parameter : List Variable
  decision : List Variable
  constraints : List (Operator × String × String)
  objective : Objective
  objectiveVariable : Option String

namespace Blueprint

def members (b : Blueprint) : List Variable := b.parameter ++ b.decision

/-- The names of the variables: first the parameters, then the decision variables. -/
def names (b : Blueprint) : List String := b.members.map Variable.name

/-- A constraint, given by names, as data. -/
def constraintData (c : Operator × String × String) : Value :=
  .ofFields [("operator", .str c.1.spelling), ("variables", .ofList [.str c.2.1, .str c.2.2])]

/-- The document of the model. -/
def toValue (b : Blueprint) : Value :=
  .ofFields
    [("parameter", .ofList (b.parameter.map Model.variableData)),
     ("decision", .ofList (b.decision.map Model.variableData)),
     ("constraints", .ofList (b.constraints.map constraintData)),
     ("objective", .str b.objective.spelling),
     ("objective_variable", (b.objectiveVariable.map Value.str).getD .null)]

/-- A constraint, given by names, as a line of a program. -/
def constraintLine (c : Operator × String × String) : List Char :=
  "constraint ".toList ++ c.2.1.toList ++ ' ' :: c.1.spelling.toList ++ ' ' :: c.2.2.toList ++ [';']

/-- The solve item of the program. -/
def solveItem (b : Blueprint) : List Char :=
  match b.objectiveVariable with
  | none => "solve satisfy;".toList
  | some name => "solve ".toList ++ b.objective.spelling.toList ++ ' ' :: name.toList ++ [';']

/-- The program for the model. -/
def source (b : Blueprint) : Except Fault (List Char) := do
  let parameters ← b.parameter.mapM Program.parameterLine
  let decisions ← b.decision.mapM Program.decisionLine
  return (parameters ++ decisions ++ b.constraints.map constraintLine).flatMap Program.line ++
    Program.line b.solveItem

end Blueprint

namespace Model

/-- The model without its store. -/
def blueprint (s : Store) (m : Model) : Blueprint where
  parameter := m.parameter.map fun r => (s.get r).essence
  decision := m.decision.map fun r => (s.get r).essence
  constraints := m.constraints.map fun c => (c.operator, s.name c.left, s.name c.right)
  objective := m.objective
  objectiveVariable := m.objectiveVariable.map s.name

theorem names_blueprint (s : Store) (m : Model) : (m.blueprint s).names = m.members.map s.name := by
  simp only [Blueprint.names, Blueprint.members, blueprint, members, List.map_append, List.map_map,
    Function.comp_def, Variable.essence_name]
  rfl

/-! ## Documents -/

theorem variableData_essence (v : Variable) : variableData v.essence = variableData v := by
  rcases v with ⟨name, type, role | role, value⟩ <;> rfl

/-- The document of a model can be told from its blueprint. -/
theorem toValue_eq (s : Store) (m : Model) : m.toValue s = (m.blueprint s).toValue := by
  rcases m with ⟨decision, parameter, constraints, objective, _ | r⟩ <;>
    simp only [toValue, Blueprint.toValue, blueprint, List.map_map, Function.comp_def, variableData_essence] <;>
    rfl

/-! ## Programs -/

theorem parameterLine_essence {v : Variable} (h : v.kind = .parameter) :
    Program.parameterLine v.essence = Program.parameterLine v := by
  simp [Program.parameterLine, Variable.essence_value h]

theorem decisionLine_essence {v : Variable} (h : v.kind = .decision) :
    Program.decisionLine v.essence = Program.decisionLine v := by
  simp [Program.decisionLine, Variable.domain, Variable.essence_role h]

theorem mapM_proper {α β : Type} {field : String} (f : α → Except Fault β) (as : List α) :
    ((as.map Given.proper).mapM fun g => g.require field >>= f) = as.mapM f := by
  rw [List.mapM_map]
  rfl

theorem declarations_eq (s : Store) (parameter decision : List Ref) (constraints : List Constraint) :
    Program.declarations s parameter decision constraints = (do
      let parameters ← parameter.mapM fun r => Program.parameterLine (s.get r)
      let decisions ← decision.mapM fun r => Program.decisionLine (s.get r)
      return (parameters ++ decisions ++ constraints.map (Program.constraintLine s)).flatMap Program.line) := by
  simp only [Program.declarations, Program.declarationsOfGiven, mapM_proper, List.mapM_pure]
  rfl

/-- The program for a model can be told from its blueprint. -/
theorem source_eq {s : Store} {m : Model} (h : m.Lawful s) : Program.source s m = (m.blueprint s).source := by
  have parameters : (m.parameter.map fun r => (s.get r).essence).mapM Program.parameterLine =
      m.parameter.mapM fun r => Program.parameterLine (s.get r) := by
    rw [List.mapM_map]
    exact Except.mapM_congr fun r hr => parameterLine_essence (h.parameter r hr)
  have decisions : (m.decision.map fun r => (s.get r).essence).mapM Program.decisionLine =
      m.decision.mapM fun r => Program.decisionLine (s.get r) := by
    rw [List.mapM_map]
    exact Except.mapM_congr fun r hr => decisionLine_essence (h.decision r hr)
  have item : Program.solveItem s m = (m.blueprint s).solveItem := by
    unfold Program.solveItem Blueprint.solveItem blueprint
    cases m.objectiveVariable <;> rfl
  simp only [Program.source, declarations_eq, Blueprint.source, item]
  simp only [blueprint, parameters, decisions, List.map_map, bind_assoc, pure_bind]
  rfl

/-! ## Over time -/

/-- Whatever happens to its variables, a constructed model keeps its blueprint. -/
theorem Constructed.blueprint_eq {s s' : Store} {m : Model} (h : Constructed s m) (run : s.Leads s') :
    m.blueprint s' = m.blueprint s := by
  have lawful := h.lawful
  have same : ∀ r ∈ m.members, (s.get r).Later (s'.get r) := fun r hr => run.later (h.declared hr)
  have operand : ∀ c ∈ m.constraints, ∀ r ∈ c.operands, s'.name r = s.name r :=
    fun c hc r hr => (same r (lawful.operands c hc r hr)).name
  have parameter := List.map_congr_left fun r (hr : r ∈ m.parameter) =>
    (same r (List.mem_append_left _ hr)).essence
  have decision := List.map_congr_left fun r (hr : r ∈ m.decision) =>
    (same r (List.mem_append_right _ hr)).essence
  have constraints : (m.constraints.map fun c => (c.operator, s'.name c.left, s'.name c.right)) =
      m.constraints.map fun c => (c.operator, s.name c.left, s.name c.right) :=
    List.map_congr_left fun c hc => by
      rw [operand c hc c.left (by simp [Constraint.operands]),
        operand c hc c.right (by simp [Constraint.operands])]
  have objective : m.objectiveVariable.map s'.name = m.objectiveVariable.map s.name := by
    cases e : m.objectiveVariable with
    | none => rfl
    | some r => exact congrArg some (same r (lawful.objectiveMember r e)).name
  simp only [blueprint, parameter, decision, constraints, objective]

end Model

end ZincModel
