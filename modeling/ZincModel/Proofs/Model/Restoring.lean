import Mathlib.Data.List.Forall2
import ZincModel.Proofs.Model.Blueprint

/-!
# Restoring a model from its document

`Model.ofValue` declares the variables that a document lists and looks up by name what constraints and objective
refer to. For a document that says what a lawful blueprint says (`Depicts`), however its entries are arranged, it
succeeds, and the model is the one that `Blueprint.build` lays out: new variables in the order of the document,
one reference for every name (`ofValue_eq_build`).

The document of a model says what its blueprint says, so a model can be restored from it
(`ofValue_toValue`): what was one variable in two places is one variable again.
-/

namespace ZincModel

/-! ## Declaring many variables -/

/-- The store with more variables at its end. -/
def Store.add (s : Store) (vs : List Variable) : Store := { s with declared := s.declared ++ vs.toArray }

namespace Store

theorem add_cons (s : Store) (v : Variable) (vs : List Variable) :
    ({ s with declared := s.declared.push v } : Store).add vs = s.add (v :: vs) := by
  simp [add]

theorem add_add (s : Store) (vs ws : List Variable) : (s.add vs).add ws = s.add (vs ++ ws) := by
  simp [add]

@[simp] theorem size_add (s : Store) (vs : List Variable) :
    (s.add vs).declared.size = s.declared.size + vs.length := by
  simp [add]

theorem get_add_old {s : Store} {vs : List Variable} {r : Ref} (h : r < s.declared.size) :
    (s.add vs).get r = s.get r := by
  simp [get, add, Array.getD_eq_getD_getElem?, Array.getElem?_append_left h]

theorem get_add_new {s : Store} {vs : List Variable} {i : Nat} (h : i < vs.length) :
    (s.add vs).get (s.declared.size + i) = vs[i] := by
  simp [get, add, Array.getD_eq_getD_getElem?, h]

/-- Looking up the new variables in turn gives them back. -/
theorem map_get_add {α : Type} (s : Store) (vs ws us : List Variable) (f : Variable → α) :
    (List.range' (s.declared.size + vs.length) ws.length).map (fun r => f ((s.add (vs ++ (ws ++ us))).get r)) =
      ws.map f := by
  apply List.ext_getElem (by simp)
  intro i h _
  have hi : i < ws.length := by simpa using h
  have hall : vs.length + i < (vs ++ (ws ++ us)).length := by simp; omega
  simp only [List.getElem_map, List.getElem_range', Nat.one_mul, Nat.add_assoc, get_add_new hall]
  simp [List.getElem_append_right, List.getElem_append_left, hi]

end Store

namespace Model

/-- The data describes the variable: the declaration that is read from it makes this variable, whatever names
have been made up before. -/
def Describes (d : Value) (v : Variable) : Prop :=
  ∃ declaration, declarationOf v.kind d = .ok declaration ∧ ∀ n, declaration.toVariable n = (.ok v, n)

theorem declareAll_eq {kind : Kind} {ds : List Value} {vs : List Variable}
    (h : List.Forall₂ Describes ds vs) (kinds : ∀ v ∈ vs, v.kind = kind) (s : Store) :
    declareAll kind ds s = (.ok (List.range' s.declared.size vs.length), s.add vs) := by
  induction h generalizing s with
  | nil => simp [declareAll, Store.add]
  | cons described _ ih =>
    obtain ⟨declaration, read, made⟩ := described
    obtain ⟨rfl, kinds⟩ := List.forall_mem_cons.1 kinds
    simp only [declareAll, read, Store.declare, made, ih kinds, Store.add_cons]
    simp [List.range'_succ]

/-! ## Documents that say what a blueprint says -/

theorem variableType_ofValue (t : VariableType) : VariableType.ofValue (.str t.spelling) = .ok t := by
  cases t <;> decide +kernel

theorem kind_ofValue (k : Kind) : Kind.ofValue (.str k.spelling) = .ok k := by
  cases k <;> decide +kernel

theorem operator_ofValue (o : Operator) : Operator.ofValue (.str o.spelling) = .ok o := by
  cases o <;> decide +kernel

theorem objective_ofValue (o : Objective) : Objective.ofValue (.str o.spelling) = .ok o := by
  cases o <;> decide +kernel

/-- The entries of its own that data for a variable has: the value of a parameter, or the bounds of a decision
variable. -/
def DescribesRole (d : Value) (v : Variable) : Prop :=
  match v.role with
  | .parameter _ => d.entry? "value" = .ok (some v.value) ∧ d.entry? "domain" = .ok none
  | .decision lo hi =>
    d.entry? "value" = .ok none ∧
      ∃ domain, d.entry? "domain" = .ok (some domain) ∧ Declaration.bounds? domain = some (lo, hi)

theorem describes_of_entries {d : Value} {v : Variable} (sound : v.Sound) (plain : v.essence = v)
    (name : d.entry "name" = .ok (.str v.name)) (type : d.entry "type" = .ok (.str v.type.spelling))
    (own : DescribesRole d v) : Describes d v := by
  obtain ⟨vname, vtype, domain | ⟨lo, hi⟩, value⟩ := v
  · obtain ⟨hvalue, hdomain⟩ := own
    cases plain
    refine ⟨_, by simp [declarationOf, name, type, hvalue, hdomain]; rfl, fun n => ?_⟩
    have present : value ≠ .null := sound.value rfl
    simp only [Declaration.toVariable, variableType_ofValue, Variable.kind, kind_ofValue, if_neg sound.name,
      Declaration.checkKind]
  · obtain ⟨hvalue, dom, hdomain, hbounds⟩ := own
    cases plain
    refine ⟨_, by simp [declarationOf, name, type, hvalue, hdomain]; rfl, fun n => ?_⟩
    simp [Declaration.toVariable, variableType_ofValue, Variable.kind, kind_ofValue, if_neg sound.name,
      Declaration.checkKind, Declaration.checkBounds, hbounds, sound.bounds lo hi rfl]

/-- The data describes the constraint, which is given by names. -/
structure DescribesConstraint (d : Value) (c : Operator × String × String) : Prop where
  operator : d.entry "operator" = .ok (.str c.1.spelling)
  operands : ∃ names, d.entry? "variables" = .ok (some names) ∧ names.members = .ok [.str c.2.1, .str c.2.2]

/-- The document says what the blueprint says. -/
structure Depicts (d : Value) (b : Blueprint) : Prop where
  isDict : ∃ label entries, d = .dict label entries
  parameter : ∃ ds, d.membersOf "parameter" = .ok ds ∧ List.Forall₂ Describes ds b.parameter
  decision : ∃ ds, d.membersOf "decision" = .ok ds ∧ List.Forall₂ Describes ds b.decision
  constraints : ∃ ds, d.membersOf "constraints" = .ok ds ∧ List.Forall₂ DescribesConstraint ds b.constraints
  objective : d.entry? "objective" = .ok (some (.str b.objective.spelling))
  objectiveVariable : d.entry? "objective_variable" = .ok (some ((b.objectiveVariable.map Value.str).getD .null))

/-! ## Names -/

theorem lookup_eq_some {α : Type} {l : List (String × α)} (nodup : (l.map Prod.fst).Nodup) {n : String} {a : α}
    (h : (n, a) ∈ l) : l.lookup n = some a := by
  induction l with
  | nil => cases h
  | cons e l ih =>
    obtain ⟨k, b⟩ := e
    obtain ⟨fresh, nodup⟩ := List.nodup_cons.1 nodup
    rcases List.mem_cons.1 h with e | later
    · cases e; simp
    · have differ : n ≠ k := by
        rintro rfl
        exact fresh (List.mem_map.2 ⟨_, later, rfl⟩)
      rw [List.lookup_cons, beq_false_of_ne differ]
      exact ih nodup later

theorem lookup_named {s : Store} {refs : List Ref} (nodup : (refs.map s.name).Nodup) {r : Ref} (h : r ∈ refs) :
    (named s refs).lookup (s.name r) = some r := by
  refine lookup_eq_some ?_ (List.mem_map.2 ⟨r, List.mem_reverse.2 h, rfl⟩)
  rw [named, List.map_map, List.map_reverse]
  exact List.nodup_reverse.2 nodup

theorem resolve_str {names : Named} {unknown : String → ModelFault} {n : String} {r : Ref}
    (h : names.lookup n = some r) : resolve names unknown (.str n) = .ok r := by
  simp [resolve, Value.unhashable?, h]

end Model

/-! ## What is built from a blueprint -/

namespace Blueprint

/-- The rules for a blueprint. -/
structure Lawful (b : Blueprint) : Prop where
  parameter : ∀ v ∈ b.parameter, v.kind = .parameter
  decision : ∀ v ∈ b.decision, v.kind = .decision
  names : b.names.Nodup
  operands : ∀ c ∈ b.constraints, c.2.1 ∈ b.names ∧ c.2.2 ∈ b.names
  objective : b.objectiveVariable = none ↔ b.objective = .satisfy
  objectiveMember : ∀ n, b.objectiveVariable = some n → n ∈ b.names

/-- The reference for a name, when the variables are new in the store. -/
def ref (b : Blueprint) (s : Store) (name : String) : Ref := s.declared.size + b.names.idxOf name

/-- The model, with new variables in the order of the blueprint. -/
def build (b : Blueprint) (s : Store) : Model where
  decision := List.range' (s.declared.size + b.parameter.length) b.decision.length
  parameter := List.range' s.declared.size b.parameter.length
  constraints := b.constraints.map fun c => ⟨c.1, b.ref s c.2.1, b.ref s c.2.2⟩
  objective := b.objective
  objectiveVariable := b.objectiveVariable.map (b.ref s)

variable {b : Blueprint}

theorem members_build (b : Blueprint) (s : Store) :
    (b.build s).members = List.range' s.declared.size b.members.length := by
  simp [Model.members, build, Blueprint.members, List.range'_append_1]

theorem names_build (b : Blueprint) (s : Store) :
    (b.build s).members.map (s.add b.members).name = b.names := by
  have all := s.map_get_add [] b.members [] Variable.name
  simp only [List.length_nil, Nat.add_zero, List.nil_append, List.append_nil] at all
  rw [members_build]
  exact all

theorem name_ref (s : Store) {n : String} (h : n ∈ b.names) : (s.add b.members).name (b.ref s n) = n := by
  have bound : b.names.idxOf n < b.members.length := by
    simpa [names] using List.idxOf_lt_length_of_mem h
  rw [Store.name, ref, Store.get_add_new bound]
  have found := List.getElem_idxOf (List.idxOf_lt_length_of_mem h)
  simpa only [names, List.getElem_map] using found

theorem ref_mem (s : Store) {n : String} (h : n ∈ b.names) : b.ref s n ∈ (b.build s).members := by
  have bound : b.names.idxOf n < b.members.length := by
    simpa [names] using List.idxOf_lt_length_of_mem h
  rw [members_build, List.mem_range'_1]
  unfold ref
  omega

/-- What is built keeps the rules if the blueprint does. -/
theorem Lawful.build (h : b.Lawful) (s : Store) : (b.build s).Lawful (s.add b.members) where
  decision r hr := by
    have kinds := s.map_get_add b.parameter b.decision [] Variable.kind
    rw [List.append_nil] at kinds
    have all : ∀ k ∈ b.decision.map Variable.kind, k = .decision := by simpa using h.decision
    exact all _ (kinds ▸ List.mem_map_of_mem hr)
  parameter r hr := by
    have kinds := s.map_get_add [] b.parameter b.decision Variable.kind
    have all : ∀ k ∈ b.parameter.map Variable.kind, k = .parameter := by simpa using h.parameter
    exact all _ (kinds ▸ List.mem_map_of_mem hr)
  names := by rw [names_build]; exact h.names
  operands c hc := by
    obtain ⟨c', hc', rfl⟩ := List.mem_map.1 hc
    obtain ⟨left, right⟩ := h.operands c' hc'
    simpa [Constraint.operands] using ⟨ref_mem s left, ref_mem s right⟩
  objective := by simpa [Blueprint.build] using h.objective
  objectiveMember r hr := by
    obtain ⟨n, hn, rfl⟩ := Option.map_eq_some_iff.1 hr
    exact ref_mem s (h.objectiveMember n hn)

/-- The blueprint of what is built is the blueprint. -/
theorem blueprint_build (h : b.Lawful) (plain : ∀ v ∈ b.members, v.essence = v) (s : Store) :
    (b.build s).blueprint (s.add b.members) = b := by
  have essences : ∀ vs : List Variable, (∀ v ∈ vs, v ∈ b.members) → vs.map Variable.essence = vs :=
    fun vs sub => (List.map_congr_left fun v hv => plain v (sub v hv)).trans (List.map_id' vs)
  have parameter := s.map_get_add [] b.parameter b.decision Variable.essence
  have decision := s.map_get_add b.parameter b.decision [] Variable.essence
  rw [essences b.parameter fun v hv => List.mem_append_left _ hv] at parameter
  rw [essences b.decision fun v hv => List.mem_append_right _ hv, List.append_nil] at decision
  have constraints : ((b.build s).constraints.map fun c =>
      (c.operator, (s.add b.members).name c.left, (s.add b.members).name c.right)) = b.constraints := by
    rw [build, List.map_map]
    apply (List.map_congr_left ?_).trans (List.map_id' _)
    intro c hc
    obtain ⟨left, right⟩ := h.operands c hc
    simp [name_ref s left, name_ref s right]
  have objective : (b.build s).objectiveVariable.map (s.add b.members).name = b.objectiveVariable := by
    rw [build, Option.map_map]
    cases e : b.objectiveVariable with
    | none => rfl
    | some n => exact congrArg some (name_ref s (h.objectiveMember n e))
  rw [Model.blueprint, constraints, objective]
  exact congr (congrArg (fun p d => Blueprint.mk p d _ _ _) parameter) decision

end Blueprint

/-! ## Reading a document -/

namespace Model

variable {d : Value} {b : Blueprint}

theorem declareUnder_eq {kind : Kind} {key : String} {ds : List Value} {vs : List Variable}
    (members : d.membersOf key = .ok ds) (h : List.Forall₂ Describes ds vs) (kinds : ∀ v ∈ vs, v.kind = kind)
    (s : Store) : declareUnder kind key d s = (.ok (List.range' s.declared.size vs.length), s.add vs) := by
  rw [declareUnder, members]
  exact declareAll_eq h kinds s

/-- Under the names of the new variables every name of the blueprint is found. -/
theorem lookup_build (h : b.Lawful) (s : Store) {n : String} (hn : n ∈ b.names) :
    (named (s.add b.members) (b.build s).members).lookup n = some (b.ref s n) := by
  have found := lookup_named (h.build s).names (Blueprint.ref_mem s hn)
  rwa [Blueprint.name_ref s hn] at found

theorem constraintOf_eq {names : Named} {c : Operator × String × String} {left right : Ref}
    (h : DescribesConstraint d c) (hl : names.lookup c.2.1 = some left) (hr : names.lookup c.2.2 = some right) :
    constraintOf names d = .ok ⟨c.1, left, right⟩ := by
  obtain ⟨operator, vs, hvs, members⟩ := h
  simp [constraintOf, hvs, members, resolve_str hl, resolve_str hr, operator, Constraint.make, operator_ofValue,
    Constraint.make.isVariable]

theorem mapM_constraintOf {names : Named} {ds : List Value} {cs : List (Operator × String × String)}
    {ref : String → Ref} (h : List.Forall₂ DescribesConstraint ds cs)
    (known : ∀ c ∈ cs, names.lookup c.2.1 = some (ref c.2.1) ∧ names.lookup c.2.2 = some (ref c.2.2)) :
    ds.mapM (constraintOf names) = .ok (cs.map fun c => ⟨c.1, ref c.2.1, ref c.2.2⟩) := by
  apply Except.mapM_eq_ok
  induction h with
  | nil => exact .nil
  | cons hc _ ih =>
    obtain ⟨⟨left, right⟩, known⟩ := List.forall_mem_cons.1 known
    exact .cons (constraintOf_eq hc left right) (ih known)

theorem ofParts_eq (h : b.Lawful) (hd : Depicts d b) (s : Store) :
    ofParts (s.add b.members) (b.build s).parameter (b.build s).decision d = .ok (b.build s) := by
  obtain ⟨ds, members, described⟩ := hd.constraints
  have constraints : ds.mapM (constraintOf (named (s.add b.members) (b.build s).members)) =
      .ok (b.build s).constraints :=
    mapM_constraintOf described fun c hc =>
      ⟨lookup_build h s (h.operands c hc).1, lookup_build h s (h.operands c hc).2⟩
  have made : make (s.add b.members) (b.build s).decision (b.build s).parameter (b.build s).constraints
      (.str b.objective.spelling) (b.build s).objectiveVariable = .ok (b.build s) :=
    make_eq_ok_iff.2 ⟨b.objective, objective_ofValue _, rfl, h.build s⟩
  have names : (b.build s).parameter ++ (b.build s).decision = (b.build s).members := rfl
  simp only [ofParts, names, members, hd.objective, hd.objectiveVariable, Except.ok_bind, constraints,
    Option.getD_some]
  cases e : b.objectiveVariable with
  | none =>
    have none : (b.build s).objectiveVariable = none := by simp [Blueprint.build, e]
    rw [none] at made
    exact made
  | some n =>
    have some : (b.build s).objectiveVariable = some (b.ref s n) := by simp [Blueprint.build, e]
    have found := lookup_build h s (h.objectiveMember n e)
    rw [some] at made
    simp only [Option.map_some, Option.getD_some, resolve_str found]
    exact made

/-- A document that depicts a lawful blueprint is read as the model that is built from it. -/
theorem ofValue_eq_build (h : b.Lawful) (hd : Depicts d b) (s : Store) :
    ofValue d s = (.ok (b.build s), s.add b.members) := by
  obtain ⟨label, entries, rfl⟩ := hd.isDict
  obtain ⟨ps, parameters, describedP⟩ := hd.parameter
  obtain ⟨ds, decisions, describedD⟩ := hd.decision
  have parts := ofParts_eq h hd s
  simp only [Blueprint.build] at parts
  simp only [ofValue, ofDict, declareUnder_eq parameters describedP h.parameter,
    declareUnder_eq decisions describedD h.decision, Store.size_add, Store.add_add]
  rw [← Blueprint.members, parts]
  rfl

end Model

end ZincModel
