import ZincModel.Model.Overview
import ZincModel.Proofs.Model.CanonicalText
import ZincModel.Proofs.Yaml.RoundTrip

/-!
# Models survive YAML

What is read from the YAML text of a model is its document made anew. It depicts a blueprint that is the old one but
for the numbers of the values in it (`Blueprint.exists_depicted`). So the text can be read as a model again, whose
document is the same (`ofYaml_toYaml`). The values of parameters have to be durable: keys that are written in front of
their colon may not become too long, and far to the right no space may follow a character that needs an escape.
-/

namespace ZincModel

open Value (Renewed)
open Yaml (Durable scalarForm)

/-! ## Values made anew -/

namespace Value

variable {v v' d : Value}

theorem Renewed.fields {fields : List (String × Value)} (h : Renewed (.ofFields fields) d) :
    ∃ number fields', d = .dict (some ⟨number, false⟩) (fields'.map fun f => (.str f.1, f.2)) ∧
      List.Forall₂ (fun f f' : String × Value => f'.1 = f.1 ∧ Renewed f.2 f'.2) fields fields' := by
  cases h with
  | dict _ number _ keys values =>
    obtain ⟨fields', rfl, renewed⟩ := Renewed.of_fields keys values
    exact ⟨number, fields', rfl, renewed⟩

/-- Fields that are made anew, one by one. -/
theorem Renewed.field {k : String} {fields fields' : List (String × Value)}
    (h : List.Forall₂ (fun f f' : String × Value => f'.1 = f.1 ∧ Renewed f.2 f'.2) ((k, v) :: fields) fields') :
    ∃ v' others, fields' = (k, v') :: others ∧ Renewed v v' ∧
      List.Forall₂ (fun f f' : String × Value => f'.1 = f.1 ∧ Renewed f.2 f'.2) fields others := by
  obtain ⟨⟨k', v'⟩, others, ⟨rfl, renewed⟩, rest, rfl⟩ := List.forall₂_cons_left_iff.1 h
  exact ⟨v', others, rfl, renewed, rest⟩

theorem Renewed.items {items : List Value} (h : Renewed (.ofList items) d) :
    ∃ number items', d = .list (some ⟨number, false⟩) items' ∧ List.Forall₂ Renewed items items' := by
  cases h with
  | list _ number items => exact ⟨number, _, rfl, items⟩

theorem Renewed.pair {a b : Value} (h : Renewed (.ofList [a, b]) d) :
    ∃ number a' b', d = .list (some ⟨number, false⟩) [a', b'] ∧ Renewed a a' ∧ Renewed b b' := by
  obtain ⟨number, items, rfl, renewed⟩ := h.items
  obtain ⟨a', others, first, renewed', rfl⟩ := List.forall₂_cons_left_iff.1 renewed
  obtain ⟨b', none, second, nothing, rfl⟩ := List.forall₂_cons_left_iff.1 renewed'
  cases nothing
  exact ⟨number, a', b', rfl, first, second⟩

theorem Renewed.ne_null (h : Renewed v v') (some : v ≠ .null) : v' ≠ .null := by
  cases h with
  | null => exact some
  | _ => simp

/-- A scalar that is made anew is the same one, but for the number of a floating-point number. -/
theorem Renewed.scalar (h : Renewed v v') (isScalar : v.isScalar = true) :
    v' = v ∨ ∃ n n' x, v = .float n x ∧ v' = .float n' x := by
  cases h with
  | float n n' x => exact .inr ⟨n, n', x, rfl, rfl⟩
  | list => cases isScalar
  | dict => cases isScalar
  | _ => exact .inl rfl

theorem same_ofFields {fields fields' : List (String × Value)}
    (h : List.Forall₂ (fun f f' => f.1 = f'.1 ∧ f.2.same f'.2 = true) fields fields') :
    (ofFields fields).same (ofFields fields') = true := by
  refine sameEntries_iff.2 ?_
  rw [List.forall₂_map_left_iff, List.forall₂_map_right_iff]
  exact h.imp fun f f' same => ⟨same.1 ▸ same_refl _, same.2⟩

end Value

theorem Yaml.isScalar_form {v : Value} {form : Tag × List Char} (h : scalarForm v = some form) : v.isScalar = true := by
  cases v with
  | list => cases h
  | dict => cases h
  | tuple => cases h
  | set => cases h
  | _ => rfl

namespace Yaml

/-- The keys in the documents of models. -/
def documentKeys : List String :=
  ["name", "type", "value", "domain", "operator", "variables", "parameter", "decision", "constraints", "objective",
    "objective_variable"]

theorem isShort_documentKeys : ∀ k ∈ documentKeys, isShortText k.toList = true ∧ keyWidth k.toList ≤ 1024 := by
  decide +kernel

variable {shared : Nat → Value} {k : Nat} {flush : Bool}

theorem durable_ofFields {fields : List (String × Value)} (nodup : (fields.map Prod.fst).Nodup)
    (known : ∀ f ∈ fields, f.1 ∈ documentKeys) (values : ∀ f ∈ fields, Durable shared (k + 2) true f.2) :
    Durable shared k flush (.ofFields fields) := by
  have short := fun f hf => isShort_documentKeys _ (known f hf)
  have object : Value.IsObject (fields.map fun f => (Value.str f.1, f.2)) := by
    refine ⟨List.forall_mem_map.2 fun f _ => ⟨f.1, rfl⟩, ?_⟩
    rw [List.map_map]
    have keys : fields.map (Prod.fst ∘ fun f => (Value.str f.1, f.2)) = (fields.map Prod.fst).map Value.str := by
      rw [List.map_map]
      rfl
    rw [keys]
    exact nodup.map fun _ _ e => Value.str.inj e
  refine .dict (by simp) object (fun s v hv => ?_) (fun s v hv => ?_)
  · obtain ⟨f, hf, e⟩ := List.mem_map.1 hv
    cases e
    rw [KeyFits, if_pos (short f hf).1]
    exact (short f hf).2
  · obtain ⟨f, hf, e⟩ := List.mem_map.1 hv
    cases e
    rw [(short f hf).1]
    exact values f hf

/-- A scalar is durable where lines go on near the margin. -/
theorem durable_scalar {v : Value} {form : Tag × List Char} (h : scalarForm v = some form) (near : k < Sheet.width) :
    Durable shared k flush v := .scalar h (.inl near)

end Yaml

/-! ## Variables -/

namespace Variable

/-- The value of a parameter is durable where it is written, and the bounds of a decision variable are scalars that can
be written. -/
def IsDurable (shared : Nat → Value) (v : Variable) : Prop :=
  match v.role with
  | .parameter _ => Durable shared 4 true v.value
  | .decision lo hi => (∃ form, scalarForm lo = some form) ∧ ∃ form, scalarForm hi = some form

/-- The variable with its value or its bounds made anew, if it has no others. -/
inductive Renewed : Variable → Variable → Prop
  | parameter (name : String) (type : VariableType) {value value' : Value} :
    value.Renewed value' → Renewed ⟨name, type, .parameter .null, value⟩ ⟨name, type, .parameter .null, value'⟩
  | decision (name : String) (type : VariableType) {lo lo' hi hi' : Value} : lo.Renewed lo' → hi.Renewed hi' →
    Renewed ⟨name, type, .decision lo hi, .null⟩ ⟨name, type, .decision lo' hi', .null⟩

variable {shared : Nat → Value} {v v' : Variable} {d : Value}

theorem IsDurable.essence (h : v.IsDurable shared) : v.essence.IsDurable shared := by
  rcases v with ⟨name, type, domain | ⟨lo, hi⟩, value⟩ <;> exact h

theorem Renewed.name (h : v.Renewed v') : v'.name = v.name := by cases h <;> rfl

theorem Renewed.kind (h : v.Renewed v') : v'.kind = v.kind := by cases h <;> rfl

theorem Renewed.essence (h : v.Renewed v') : v'.essence = v' := by cases h <;> rfl

/-- A variable that is made anew keeps the rules. -/
theorem Renewed.sound (h : v.Renewed v') (sound : v.Sound) (durable : v.IsDurable shared) : v'.Sound where
  name := by
    rw [h.name]
    exact sound.name
  value k := by
    cases h with
    | parameter name type value => exact value.ne_null (sound.value rfl)
    | decision => cases k
  bounds lo' hi' e := by
    cases h with
    | parameter => cases e
    | decision name type lo hi =>
      cases e
      obtain ⟨⟨form, isForm⟩, form', isForm'⟩ := durable
      rw [Value.less_congr (hi.scalar (Yaml.isScalar_form isForm')) (lo.scalar (Yaml.isScalar_form isForm))]
      exact sound.bounds _ _ rfl

theorem Renewed.same_variableData (h : v.Renewed v') :
    (Model.variableData v').same (Model.variableData v) = true := by
  cases h with
  | parameter name type value =>
    exact Value.same_ofFields (.cons ⟨rfl, Value.same_refl _⟩ (.cons ⟨rfl, Value.same_refl _⟩
      (.cons ⟨rfl, value.same⟩ .nil)))
  | decision name type lo hi =>
    exact Value.same_ofFields (.cons ⟨rfl, Value.same_refl _⟩ (.cons ⟨rfl, Value.same_refl _⟩
      (.cons ⟨rfl, Value.sameAll_iff.2 (.cons lo.same (.cons hi.same .nil))⟩ .nil)))

/-- Data of a variable that is made anew describes the variable made anew. -/
theorem exists_described (plain : v.essence = v) (sound : v.Sound) (durable : v.IsDurable shared)
    (h : (Model.variableData v).Renewed d) : ∃ v', Model.Describes d v' ∧ v.Renewed v' := by
  obtain ⟨number, fields, rfl, renewed⟩ := h.fields
  obtain ⟨name', fields, rfl, isName, renewed⟩ := Value.Renewed.field renewed
  obtain ⟨type', fields, rfl, isType, renewed'⟩ := Value.Renewed.field renewed
  obtain ⟨own, fields, rfl, isOwn, renewed''⟩ := Value.Renewed.field renewed'
  cases renewed''
  cases isName
  cases isType
  rcases v with ⟨name, type, domain | ⟨lo, hi⟩, value⟩
  · cases plain
    have again : Renewed ⟨name, type, .parameter .null, value⟩ ⟨name, type, .parameter .null, own⟩ :=
      .parameter name type isOwn
    exact ⟨_, Model.describes_of_entries (again.sound sound durable) again.essence rfl rfl ⟨rfl, rfl⟩, again⟩
  · cases plain
    obtain ⟨number', lo', hi', rfl, loRenewed, hiRenewed⟩ := isOwn.pair
    have again : Renewed ⟨name, type, .decision lo hi, .null⟩ ⟨name, type, .decision lo' hi', .null⟩ :=
      .decision name type loRenewed hiRenewed
    exact ⟨_, Model.describes_of_entries (again.sound sound durable) again.essence rfl rfl ⟨rfl, _, rfl, rfl⟩, again⟩

end Variable

namespace Model

theorem durable_variableData {shared : Nat → Value} {v : Variable} (h : v.IsDurable shared) :
    Durable shared 2 false (variableData v) := by
  rcases v with ⟨name, type, domain | ⟨lo, hi⟩, value⟩
  · refine Yaml.durable_ofFields (by simp) (by simp [Yaml.documentKeys]) ?_
    simp only [List.forall_mem_cons]
    exact ⟨Yaml.durable_scalar rfl (by decide), Yaml.durable_scalar rfl (by decide), h, by simp⟩
  · obtain ⟨⟨form, isForm⟩, form', isForm'⟩ := h
    refine Yaml.durable_ofFields (by simp) (by simp [Yaml.documentKeys]) ?_
    simp only [List.forall_mem_cons]
    refine ⟨Yaml.durable_scalar rfl (by decide), Yaml.durable_scalar rfl (by decide), .list (by simp) ?_, by simp⟩
    simp only [List.forall_mem_cons]
    exact ⟨Yaml.durable_scalar isForm (by decide), Yaml.durable_scalar isForm' (by decide), by simp⟩

theorem membersOf_list {d : Value} {key : String} {number : Nat} {items : List Value}
    (h : d.entry? key = .ok (some (.list (some ⟨number, false⟩) items))) : d.membersOf key = .ok items := by
  rw [Value.membersOf, h]
  cases items <;> rfl

theorem durable_constraintData {shared : Nat → Value} (c : Operator × String × String) :
    Durable shared 2 false (Blueprint.constraintData c) := by
  refine Yaml.durable_ofFields (by simp) (by simp [Yaml.documentKeys]) ?_
  simp only [List.forall_mem_cons]
  refine ⟨Yaml.durable_scalar rfl (by decide), .list (by simp) ?_, by simp⟩
  simp only [List.forall_mem_cons]
  exact ⟨Yaml.durable_scalar rfl (by decide), Yaml.durable_scalar rfl (by decide), by simp⟩

/-- Data of a constraint that is made anew describes the constraint. -/
theorem describesConstraint_renewed {c : Operator × String × String} {d : Value}
    (h : (Blueprint.constraintData c).Renewed d) : DescribesConstraint d c := by
  obtain ⟨number, fields, rfl, renewed⟩ := h.fields
  obtain ⟨operator, fields, rfl, isOperator, renewed⟩ := Value.Renewed.field renewed
  obtain ⟨names, fields, rfl, isNames, renewed'⟩ := Value.Renewed.field renewed
  obtain ⟨number', left, right, rfl, isLeft, isRight⟩ := isNames.pair
  cases renewed'
  cases isOperator
  cases isLeft
  cases isRight
  exact ⟨rfl, _, rfl, rfl⟩

end Model

/-! ## Blueprints -/

namespace Blueprint

/-- The blueprint with its variables made anew. -/
structure Renewed (b b' : Blueprint) : Prop where
  parameter : List.Forall₂ Variable.Renewed b.parameter b'.parameter
  decision : List.Forall₂ Variable.Renewed b.decision b'.decision
  constraints : b'.constraints = b.constraints
  objective : b'.objective = b.objective
  objectiveVariable : b'.objectiveVariable = b.objectiveVariable

variable {shared : Nat → Value} {b b' : Blueprint} {d : Value}

theorem Renewed.members (h : b.Renewed b') : List.Forall₂ Variable.Renewed b.members b'.members :=
  List.rel_append h.parameter h.decision

theorem Renewed.names (h : b.Renewed b') : b'.names = b.names := by
  rw [Blueprint.names, Blueprint.names, ← List.forall₂_eq_eq_eq, List.forall₂_map_left_iff,
    List.forall₂_map_right_iff]
  exact h.members.flip.imp fun _ _ renewed => renewed.name

theorem Renewed.kinds {vs vs' : List Variable} {kind : Kind} (h : List.Forall₂ Variable.Renewed vs vs')
    (kinds : ∀ v ∈ vs, v.kind = kind) : ∀ v ∈ vs', v.kind = kind := by
  intro v' hv
  obtain ⟨v, hv, renewed⟩ := Yaml.Making.exists_of_mem_right h hv
  rw [renewed.kind]
  exact kinds v hv

theorem Renewed.plain (h : b.Renewed b') : ∀ v ∈ b'.members, v.essence = v := by
  intro v' hv
  obtain ⟨v, -, renewed⟩ := Yaml.Making.exists_of_mem_right h.members hv
  exact renewed.essence

theorem Renewed.lawful (h : b.Renewed b') (lawful : b.Lawful) : b'.Lawful where
  parameter := Renewed.kinds h.parameter lawful.parameter
  decision := Renewed.kinds h.decision lawful.decision
  names := by
    rw [h.names]
    exact lawful.names
  operands := by
    rw [h.names, h.constraints]
    exact lawful.operands
  objective := by
    rw [h.objective, h.objectiveVariable]
    exact lawful.objective
  objectiveMember := by
    rw [h.names, h.objectiveVariable]
    exact lawful.objectiveMember

/-- The documents are the same. -/
theorem Renewed.same_toValue (h : b.Renewed b') : b'.toValue.same b.toValue = true := by
  have declared {vs vs' : List Variable} (h : List.Forall₂ Variable.Renewed vs vs') :
      (Value.ofList (vs'.map Model.variableData)).same (.ofList (vs.map Model.variableData)) = true := by
    refine Value.sameAll_iff.2 ?_
    rw [List.forall₂_map_left_iff, List.forall₂_map_right_iff]
    exact h.flip.imp fun _ _ renewed => renewed.same_variableData
  unfold toValue
  rw [h.constraints, h.objective, h.objectiveVariable]
  exact Value.same_ofFields (.cons ⟨rfl, declared h.parameter⟩ (.cons ⟨rfl, declared h.decision⟩
    (List.forall₂_same.2 fun _ _ => ⟨rfl, Value.same_refl _⟩)))

/-- The document of a blueprint is durable if its variables are. -/
theorem durable_toValue (h : ∀ v ∈ b.members, v.IsDurable shared) : Durable shared 0 false b.toValue := by
  have declared {vs : List Variable} (h : ∀ v ∈ vs, v.IsDurable shared) :
      Durable shared 2 true (.ofList (vs.map Model.variableData)) := by
    refine .list (by simp) (List.forall_mem_map.2 fun v hv => ?_)
    exact Model.durable_variableData (h v hv)
  have constraints : Durable shared 2 true (.ofList (b.constraints.map constraintData)) :=
    .list (by simp) (List.forall_mem_map.2 fun c _ => Model.durable_constraintData c)
  refine Yaml.durable_ofFields (by simp) (by simp [Yaml.documentKeys]) ?_
  simp only [List.forall_mem_cons]
  refine ⟨declared fun v hv => h v (List.mem_append_left _ hv), declared fun v hv => h v (List.mem_append_right _ hv),
    constraints, Yaml.durable_scalar rfl (by decide), ?_, by simp⟩
  cases b.objectiveVariable with
  | none => exact Yaml.durable_scalar rfl (by decide)
  | some n => exact Yaml.durable_scalar rfl (by decide)

/-- What is read for rows of variables describes them, made anew. -/
theorem exists_described {vs : List Variable} {ds : List Value} (plain : ∀ v ∈ vs, v.essence = v)
    (sound : ∀ v ∈ vs, v.Sound) (durable : ∀ v ∈ vs, v.IsDurable shared)
    (h : List.Forall₂ Value.Renewed (vs.map Model.variableData) ds) :
    ∃ vs', List.Forall₂ Model.Describes ds vs' ∧ List.Forall₂ Variable.Renewed vs vs' := by
  induction vs generalizing ds with
  | nil =>
    cases h
    exact ⟨[], .nil, .nil⟩
  | cons v vs ih =>
    obtain ⟨d, ds, first, others, rfl⟩ := List.forall₂_cons_left_iff.1 h
    obtain ⟨plainHere, plain⟩ := List.forall_mem_cons.1 plain
    obtain ⟨soundHere, sound⟩ := List.forall_mem_cons.1 sound
    obtain ⟨durableHere, durable⟩ := List.forall_mem_cons.1 durable
    obtain ⟨v', described, renewed⟩ := Variable.exists_described plainHere soundHere durableHere first
    obtain ⟨vs', describes, renews⟩ := ih plain sound durable others
    exact ⟨v' :: vs', .cons described describes, .cons renewed renews⟩

/-- The document of a blueprint, made anew, depicts the blueprint made anew. -/
theorem exists_depicted (plain : ∀ v ∈ b.members, v.essence = v) (sound : ∀ v ∈ b.members, v.Sound)
    (durable : ∀ v ∈ b.members, v.IsDurable shared) (h : b.toValue.Renewed d) :
    ∃ b', Model.Depicts d b' ∧ b.Renewed b' := by
  obtain ⟨number, fields, rfl, renewed⟩ := h.fields
  obtain ⟨p, fields, rfl, isParameter, renewed₁⟩ := Value.Renewed.field renewed
  obtain ⟨q, fields, rfl, isDecision, renewed₂⟩ := Value.Renewed.field renewed₁
  obtain ⟨c, fields, rfl, isConstraints, renewed₃⟩ := Value.Renewed.field renewed₂
  obtain ⟨o, fields, rfl, isObjective, renewed₄⟩ := Value.Renewed.field renewed₃
  obtain ⟨v, fields, rfl, isVariable, renewed₅⟩ := Value.Renewed.field renewed₄
  cases renewed₅
  obtain ⟨_, ps, rfl, parameters⟩ := isParameter.items
  obtain ⟨_, ds, rfl, decisions⟩ := isDecision.items
  obtain ⟨_, cs, rfl, constraints⟩ := isConstraints.items
  cases isObjective
  obtain ⟨ps', describesP, renewsP⟩ := exists_described (fun v hv => plain v (List.mem_append_left _ hv))
    (fun v hv => sound v (List.mem_append_left _ hv)) (fun v hv => durable v (List.mem_append_left _ hv)) parameters
  obtain ⟨ds', describesD, renewsD⟩ := exists_described (fun v hv => plain v (List.mem_append_right _ hv))
    (fun v hv => sound v (List.mem_append_right _ hv)) (fun v hv => durable v (List.mem_append_right _ hv)) decisions
  have describesC : List.Forall₂ Model.DescribesConstraint cs b.constraints := by
    rw [List.forall₂_map_left_iff] at constraints
    exact constraints.flip.imp fun _ _ renewed => Model.describesConstraint_renewed renewed
  have objectiveVariable : v = (b.objectiveVariable.map Value.str).getD .null := by
    cases e : b.objectiveVariable <;> rw [e] at isVariable <;> cases isVariable <;> rfl
  refine ⟨{ b with parameter := ps', decision := ds' }, ?_, renewsP, renewsD, rfl, rfl, rfl⟩
  exact {
    isDict := ⟨_, _, rfl⟩
    parameter := ⟨ps, Model.membersOf_list rfl, describesP⟩
    decision := ⟨ds, Model.membersOf_list rfl, describesD⟩
    constraints := ⟨cs, Model.membersOf_list rfl, describesC⟩
    objective := rfl
    objectiveVariable := objectiveVariable ▸ rfl }

end Blueprint

namespace Model

/-- The values and bounds of the model are durable. -/
def IsDurable (shared : Nat → Value) (s : Store) (m : Model) : Prop := ∀ r ∈ m.members, (s.get r).IsDurable shared

/-- A constructed model with durable values and bounds has a YAML text, and a model can be read from that whose document
is the same. -/
theorem ofYaml_toYaml {s : Store} {m : Model} (h : Constructed s m) {shared : Nat → Value}
    (durable : m.IsDurable shared s) (t : Store) :
    ∃ text, m.toYaml s = .ok text ∧
      ∃ m' t', ofYaml text t = (.ok m', t') ∧ (m'.toValue t').same (m.toValue s) = true := by
  have lawful := h.lawful.blueprint
  have plain := fun v => plain_blueprint (s := s) (m := m) (v := v)
  have sound := fun v => h.sound_blueprint (v := v)
  have durableMembers : ∀ v ∈ (m.blueprint s).members, v.IsDurable shared := by
    intro v hv
    rcases List.mem_append.1 hv with hv | hv <;> obtain ⟨r, hr, rfl⟩ := List.mem_map.1 hv
    · exact (durable r (List.mem_append_left _ hr)).essence
    · exact (durable r (List.mem_append_right _ hr)).essence
  obtain ⟨text, d, next, written, read, renewed⟩ :=
    Yaml.read_write (Blueprint.durable_toValue durableMembers) (by simp) t.nextNumber
  obtain ⟨b, depicts, again⟩ := Blueprint.exists_depicted plain sound durableMembers renewed
  let t' := { t with nextNumber := next }
  have built := ofValue_eq_build (again.lawful lawful) depicts t'
  refine ⟨text, by rw [toYaml, toValue_eq]; exact written, b.build t', t'.add b.members, ?_, ?_⟩
  · simp only [ofYaml, read]
    exact built
  · rw [toValue_eq, toValue_eq, Blueprint.blueprint_build (again.lawful lawful) again.plain]
    exact again.same_toValue

/-- A list that stands at two places, with a number that is not whole and texts that are like other things. -/
def row : Value :=
  .list (some ⟨5, false⟩) [.ofDouble (.ofDecimal false 1 (-1)), .str "true", .str "- é: \"x\" # y\n", .str ""]

/-- The list under two keys, the second of which needs quotes and does not stand in front of its colon. -/
def rows : Value := .ofFields [("a", row), ("~ b: \u2028", row)]

theorem durable_rows : Durable (fun _ => row) 4 true rows := by
  have item {s : String} {k : Nat} (near : k < Yaml.Sheet.width) : Durable (fun _ => row) k false (.str s) :=
    Yaml.durable_scalar rfl near
  have shared {k : Nat} (near : k + 2 < Yaml.Sheet.width) (flush : Bool) : Durable (fun _ => row) k flush row := by
    have inside : (if flush then k else k + 2) < Yaml.Sheet.width := by split <;> omega
    refine .list (by simp [row]) ?_
    simp only [List.forall_mem_cons]
    exact ⟨Yaml.durable_scalar rfl inside, item inside, item inside, item inside, by simp⟩
  have short : ∀ k ∈ ["a", "~ b: \u2028"], Yaml.keyWidth k.toList ≤ 1024 := by decide +kernel
  have entry {s : String} {v : Value} (hv : (.str s, v) ∈ [("a", row), ("~ b: \u2028", row)].map
      fun f => (Value.str f.1, f.2)) : s ∈ ["a", "~ b: \u2028"] ∧ v = row := by
    obtain ⟨rfl, rfl⟩ | ⟨rfl, rfl⟩ : s = "a" ∧ v = row ∨ s = "~ b: \u2028" ∧ v = row := by simpa using hv
    all_goals simp
  refine .dict (by simp) ⟨by simp, by simp⟩ ?_ ?_
  · intro s v hv
    unfold Yaml.KeyFits
    split
    · exact short s (entry hv).1
    · exact .inl (by decide)
  · intro s v hv
    rw [(entry hv).2]
    exact shared (by decide) _

/-- The small model comes back from its YAML text, and so does a parameter whose value is shared in part. -/
theorem ofYaml_toYaml_small :
    ((Constructed smallStore small ∧ small.IsDurable (fun _ => .null) smallStore) ∧
      ∃ text m' t', small.toYaml smallStore = .ok text ∧ ofYaml text {} = (.ok m', t') ∧
        (m'.toValue t').same (small.toValue smallStore) = true) ∧
    (Constructed (settingStore rows) setting ∧ setting.IsDurable (fun _ => row) (settingStore rows)) ∧
      ∃ text m' t', setting.toYaml (settingStore rows) = .ok text ∧ ofYaml text smallStore = (.ok m', t') ∧
        (m'.toValue t').same (setting.toValue (settingStore rows)) = true := by
  constructor
  · have int {n : Int} (h : Integer.fits n = true) : ∃ form, scalarForm (.int n) = some form := by
      simp [scalarForm, h]
    have durable : small.IsDurable (fun _ => .null) smallStore := by
      intro r hr
      obtain rfl | rfl | rfl : r = 0 ∨ r = 1 ∨ r = 2 := by simpa [members, small] using hr
      · obtain ⟨form, isForm⟩ := int (n := 7) (by decide +kernel)
        exact Yaml.durable_scalar isForm (by decide)
      · exact ⟨int (n := 0) (by decide +kernel), int (n := 5) (by decide +kernel)⟩
      · exact ⟨int (n := 1) (by decide +kernel), int (n := 4) (by decide +kernel)⟩
    obtain ⟨text, written, m', t', read, same⟩ := ofYaml_toYaml constructed_small durable {}
    exact ⟨⟨constructed_small, durable⟩, text, m', t', written, read, same⟩
  · have proper : rows ≠ .null := by rintro ⟨⟩
    have constructed := constructed_setting proper
    have durable : setting.IsDurable (fun _ => row) (settingStore rows) := by
      intro r hr
      obtain rfl : r = 0 := by simpa [members, setting] using hr
      rw [get_settingStore proper]
      exact durable_rows
    obtain ⟨text, written, m', t', read, same⟩ := ofYaml_toYaml constructed durable smallStore
    exact ⟨⟨constructed, durable⟩, text, m', t', written, read, same⟩

/-- A value in as many lists, one inside of the other. -/
def nested : Nat → Value → Value
  | 0, v => v
  | n + 1, v => .ofList [nested n v]

/-- A text with a space behind a character that needs an escape, so far to the right that its lines go on beyond the
column where they are folded. -/
def farText : Value := nested 45 (.str "aé bcd")

/-- In front of the space the line is ended twice, so that another text is read. -/
theorem keeps_farText :
    Constructed (settingStore farText) setting ∧
      setting.keeps (settingStore farText) (setting.toYaml (settingStore farText)) ofYaml = .ok false := by
  refine ⟨constructed_setting nofun, ?_⟩
  decide +kernel

end Model

end ZincModel
