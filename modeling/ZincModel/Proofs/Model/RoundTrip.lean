import ZincModel.Proofs.Model.Restoring

/-!
# Models survive their documents

The document of a constructed model depicts its blueprint, so it is read as a model again. That model has the same
document and the same program, its decision variables are unsolved, and what its constraints and its objective
refer to are its own variables, at the places that the original ones have in the original model
(`ofValue_toValue`).
-/

namespace ZincModel

/-! ## Lawful blueprints of lawful models -/

namespace Model

theorem Lawful.blueprint {s : Store} {m : Model} (h : m.Lawful s) : (m.blueprint s).Lawful where
  parameter v hv := by
    obtain ⟨r, hr, rfl⟩ := List.mem_map.1 hv
    rw [Variable.essence_kind]; exact h.parameter r hr
  decision v hv := by
    obtain ⟨r, hr, rfl⟩ := List.mem_map.1 hv
    rw [Variable.essence_kind]; exact h.decision r hr
  names := by rw [names_blueprint]; exact h.names
  operands c hc := by
    obtain ⟨c', hc', rfl⟩ := List.mem_map.1 hc
    rw [names_blueprint]
    have operand := fun r hr => List.mem_map_of_mem (f := s.name) (h.operands c' hc' r hr)
    exact ⟨operand c'.left (by simp [Constraint.operands]), operand c'.right (by simp [Constraint.operands])⟩
  objective := by simpa [Model.blueprint] using h.objective
  objectiveMember n hn := by
    obtain ⟨r, hr, rfl⟩ := Option.map_eq_some_iff.1 hn
    rw [names_blueprint]
    exact List.mem_map_of_mem (h.objectiveMember r hr)

theorem plain_blueprint {s : Store} {m : Model} {v : Variable} (hv : v ∈ (m.blueprint s).members) :
    v.essence = v := by
  rcases List.mem_append.1 hv with hv | hv <;>
    obtain ⟨r, -, rfl⟩ := List.mem_map.1 hv <;> exact Variable.essence_essence _

theorem Constructed.sound_blueprint {s : Store} {m : Model} (h : Constructed s m) {v : Variable}
    (hv : v ∈ (m.blueprint s).members) : v.Sound := by
  rcases List.mem_append.1 hv with hv | hv <;> obtain ⟨r, hr, rfl⟩ := List.mem_map.1 hv
  · exact (h.sound (List.mem_append_left _ hr)).essence
  · exact (h.sound (List.mem_append_right _ hr)).essence

/-! ## The document of a blueprint -/

theorem membersOf_ofList {d : Value} {key : String} {items : List Value}
    (h : d.entry? key = .ok (some (.ofList items))) : d.membersOf key = .ok items := by
  rw [Value.membersOf, h]
  cases items <;> rfl

theorem describes_variableData {v : Variable} (sound : v.Sound) (plain : v.essence = v) :
    Describes (variableData v) v := by
  obtain ⟨name, type, domain | ⟨lo, hi⟩, value⟩ := v
  · exact describes_of_entries sound plain rfl rfl ⟨rfl, rfl⟩
  · exact describes_of_entries sound plain rfl rfl ⟨rfl, .ofList [lo, hi], rfl, rfl⟩

theorem describesConstraint_constraintData (c : Operator × String × String) :
    DescribesConstraint (Blueprint.constraintData c) c :=
  ⟨rfl, .ofList [.str c.2.1, .str c.2.2], rfl, rfl⟩

/-- The document of a blueprint depicts it. -/
theorem depicts_toValue {b : Blueprint} (sound : ∀ v ∈ b.members, v.Sound)
    (plain : ∀ v ∈ b.members, v.essence = v) : Depicts b.toValue b where
  isDict := ⟨_, _, rfl⟩
  parameter := ⟨_, membersOf_ofList rfl, List.forall₂_map_left_iff.2 <| List.forall₂_same.2 fun v hv =>
    describes_variableData (sound v (List.mem_append_left _ hv)) (plain v (List.mem_append_left _ hv))⟩
  decision := ⟨_, membersOf_ofList rfl, List.forall₂_map_left_iff.2 <| List.forall₂_same.2 fun v hv =>
    describes_variableData (sound v (List.mem_append_right _ hv)) (plain v (List.mem_append_right _ hv))⟩
  constraints := ⟨_, membersOf_ofList rfl, List.forall₂_map_left_iff.2 <| List.forall₂_same.2 fun c _ =>
    describesConstraint_constraintData c⟩
  objective := rfl
  objectiveVariable := rfl

/-! ## Places -/

/-- The second reference stands in the lists of the second model exactly where the first one stands in those of
the first model. -/
def SamePlace (m m' : Model) (r r' : Ref) : Prop :=
  ∀ i : Nat, (m.parameter[i]? = some r ↔ m'.parameter[i]? = some r') ∧
    (m.decision[i]? = some r ↔ m'.decision[i]? = some r')

/-- Where a member stands among all members is told by its name. -/
theorem getElem?_members_iff {s : Store} {m : Model} (h : m.Lawful s) {r : Ref} (hr : r ∈ m.members) (i : Nat) :
    m.members[i]? = some r ↔ i = (m.members.map s.name).idxOf (s.name r) := by
  have bound : (m.members.map s.name).idxOf (s.name r) < (m.members.map s.name).length :=
    List.idxOf_lt_length_of_mem (List.mem_map_of_mem hr)
  constructor
  · intro e
    obtain ⟨hi, rfl⟩ := List.getElem?_eq_some_iff.1 e
    have at_i := h.names.idxOf_getElem i (by simpa using hi)
    rw [List.getElem_map] at at_i
    exact at_i.symm
  · rintro rfl
    have bound' : (m.members.map s.name).idxOf (s.name r) < m.members.length := by simpa using bound
    have same : s.name m.members[(m.members.map s.name).idxOf (s.name r)] = s.name r := by
      simpa only [List.getElem_map] using List.getElem_idxOf bound
    rw [List.getElem?_eq_getElem bound']
    exact congrArg some (List.inj_on_of_nodup_map h.names (List.getElem_mem _) hr same)

theorem samePlace_ref {s : Store} {m : Model} (h : m.Lawful s) {r : Ref} (hr : r ∈ m.members) (t : Store) :
    SamePlace m ((m.blueprint s).build t) r ((m.blueprint s).ref t (s.name r)) := by
  have place := getElem?_members_iff h hr
  rw [← names_blueprint] at place
  intro i
  constructor
  · by_cases hi : i < m.parameter.length
    · have front : m.members[i]? = m.parameter[i]? := List.getElem?_append_left hi
      rw [← front, place i]
      simp [Blueprint.build, Blueprint.ref, blueprint, hi]
    · simp [Blueprint.build, blueprint, hi]
  · by_cases hi : i < m.decision.length
    · have back : m.members[m.parameter.length + i]? = m.decision[i]? := by
        rw [members, List.getElem?_append_right (by omega), Nat.add_sub_cancel_left]
      rw [← back, place (m.parameter.length + i)]
      simp [Blueprint.build, Blueprint.ref, blueprint, hi, Nat.add_assoc]
    · simp [Blueprint.build, blueprint, hi]

/-! ## Back from the document -/

/-- A constructed model can be restored from its document in any store. The restored model has the same document
and program, and it has the old variables' places for new, unsolved variables of its own. -/
theorem ofValue_toValue {s : Store} {m : Model} (h : Constructed s m) (t : Store) :
    ∃ m' t', ofValue (m.toValue s) t = (.ok m', t') ∧
      m'.toValue t' = m.toValue s ∧
      Program.source t' m' = Program.source s m ∧
      (∀ r ∈ m'.decision, (t'.get r).value = .null) ∧
      (m'.parameter.length = m.parameter.length ∧ m'.decision.length = m.decision.length) ∧
      List.Forall₂ (fun c c' => SamePlace m m' c.left c'.left ∧ SamePlace m m' c.right c'.right)
        m.constraints m'.constraints ∧
      Option.Rel (SamePlace m m') m.objectiveVariable m'.objectiveVariable ∧
      (m'.members.Nodup ∧ ∀ r ∈ m'.members, t.declared.size ≤ r ∧ r < t'.declared.size) ∧
      ∀ r, r < t.declared.size → t'.get r = t.get r := by
  have lawful := h.lawful
  have plain := fun v => plain_blueprint (s := s) (m := m) (v := v)
  have again := Blueprint.blueprint_build lawful.blueprint plain t
  have read := ofValue_eq_build lawful.blueprint (depicts_toValue (fun v => h.sound_blueprint) plain) t
  refine ⟨_, _, toValue_eq s m ▸ read, ?_, ?_, ?_, ?_, ?_, ?_, ⟨?_, ?_⟩, ?_⟩
  · rw [toValue_eq, again, ← toValue_eq]
  · rw [source_eq (lawful.blueprint.build t), again, ← source_eq lawful]
  · intro r hr
    have values := t.map_get_add (m.blueprint s).parameter (m.blueprint s).decision [] Variable.value
    rw [List.append_nil] at values
    obtain ⟨v, hv, e⟩ := List.mem_map.1 (values ▸ List.mem_map_of_mem hr)
    rw [← plain v (List.mem_append_right _ hv),
      Variable.essence_value_decision (lawful.blueprint.decision v hv)] at e
    exact e.symm
  · simp [Blueprint.build, blueprint]
  · rw [Blueprint.build, blueprint, List.map_map, List.forall₂_map_right_iff, List.forall₂_same]
    intro c hc
    have operand := fun r hr => samePlace_ref lawful (lawful.operands c hc r hr) t
    exact ⟨operand c.left (by simp [Constraint.operands]), operand c.right (by simp [Constraint.operands])⟩
  · cases e : m.objectiveVariable with
    | none => simp [Blueprint.build, blueprint, e]
    | some r =>
      have objective := samePlace_ref lawful (lawful.objectiveMember r e) t
      simpa [Blueprint.build, blueprint, e] using objective
  · exact (lawful.blueprint.build t).names.of_map
  · intro r hr
    rw [Blueprint.members_build, List.mem_range'_1] at hr
    simpa using hr
  · intro r hr
    exact Store.get_add_old hr

/-- The small model comes back beside the original. -/
theorem ofValue_toValue_small :
    Constructed smallStore small ∧
      ∃ m' t', ofValue (small.toValue smallStore) smallStore = (.ok m', t') ∧
        m'.toValue t' = small.toValue smallStore ∧ (∀ r ∈ m'.decision, (t'.get r).value = .null) := by
  obtain ⟨m', t', read, data, _, unsolved, _⟩ := ofValue_toValue constructed_small smallStore
  exact ⟨constructed_small, m', t', read, data, unsolved⟩

end Model

end ZincModel
