import ZincModel.Proofs.Json.RoundTrip
import ZincModel.Proofs.Model.RoundTrip

/-!
# Models survive JSON

What is read from the JSON text of a model depicts its blueprint as it comes back from JSON (`depicts_readBack`):
with the same names, and with values and bounds that are alike. So the text can be read as a model again, which has
a document that is alike (`ofJson_toJson`). A model with a bound that is too long has no JSON text
(`written_bounds`).
-/

namespace ZincModel

open Json (Plain readBack)

/-! ## Looking into what is read back -/

namespace Value

theorem lookup_map (es : List (Value × Value)) (f : Value → Value) (k : String) :
    lookup k (es.map fun e => (e.1, f e.2)) = (lookup k es).map f := by
  induction es with
  | nil => rfl
  | cons e es ih =>
    obtain ⟨key, v⟩ := e
    cases key with
    | str l =>
      by_cases e : l = k
      · simp [lookup, e]
      · simpa [lookup, e] using ih
    | _ => exact ih

/-- What stands under a key does not depend on the arrangement. -/
theorem lookup_readBack {es : List (Value × Value)} (h : IsObject es) (k : String) :
    lookup k (Json.byName (Json.readBackEntries es)) = (lookup k es).map readBack := by
  have object := Json.isObject_readBackEntries h
  rw [lookup_perm object (Json.byName_perm object.text).symm, Json.readBackEntries_eq, lookup_map]

theorem entry?_readBack {es : List (Value × Value)} (h : IsObject es) (k : String) :
    entry? k (readBack (.ofEntries es)) = .ok ((lookup k es).map readBack) := by
  rw [← lookup_readBack h]
  rfl

theorem entry_readBack {es : List (Value × Value)} (h : IsObject es) {k : String} {v : Value}
    (found : lookup k es = some v) : (readBack (.ofEntries es)).entry k = .ok (readBack v) := by
  have there := lookup_readBack h k
  rw [found, Option.map_some] at there
  have opened : (readBack (.ofEntries es)).opened = .ofEntries (Json.byName (Json.readBackEntries es)) := rfl
  simp only [entry, opened, ofEntries, there]

theorem readBack_ofList (items : List Value) : readBack (.ofList items) = .ofList (items.map readBack) := by
  rw [readBack, Json.readBackAll_eq]

theorem readBack_ne_null {v : Value} (h : v ≠ .null) : readBack v ≠ .null := by
  cases v with
  | null => exact absurd rfl h
  | float n x => cases x <;> simp [readBack]
  | _ => simp [readBack]

/-- A scalar comes back as it is, but for the number of a NaN. -/
theorem readBack_scalar {v : Value} (h : v.isScalar = true) :
    readBack v = v ∨ ∃ n n' x, v = .float n x ∧ readBack v = .float n' x := by
  cases v with
  | float n x => cases x <;> exact Or.inr ⟨_, _, _, rfl, rfl⟩
  | list => cases h
  | tuple => cases h
  | set => cases h
  | dict => cases h
  | _ => exact Or.inl rfl

/-- Integers are ordered as such. -/
theorem less_int (a b : Int) : (Value.int a).less (.int b) = .ok (decide (a < b)) := by
  have order : (compare a b == .lt) = decide (a < b) := by
    rw [Bool.eq_iff_iff, beq_iff_eq, decide_eq_true_iff, compare_lt_iff_lt]
  simp only [less, lessAt, loopLimit, lessIn, lessNumber, asNumber?, Number.compare?]
  exact congrArg Except.ok order

theorem less_float_left (n n' : Option Nat) (x : Double) (v : Value) :
    (Value.float n x).less v = (Value.float n' x).less v := by
  cases v <;> rfl

theorem less_float_right (n n' : Option Nat) (x : Double) (v : Value) :
    v.less (.float n x) = v.less (.float n' x) := by
  cases v <;> rfl

/-- The order does not depend on the numbers of floating-point numbers. -/
theorem less_congr {a a' b b' : Value} (ha : a' = a ∨ ∃ n n' x, a = .float n x ∧ a' = .float n' x)
    (hb : b' = b ∨ ∃ n n' x, b = .float n x ∧ b' = .float n' x) : a'.less b' = a.less b := by
  have left : a'.less b' = a.less b' := by
    rcases ha with rfl | ⟨n, n', x, rfl, rfl⟩
    · rfl
    · exact less_float_left ..
  rw [left]
  rcases hb with rfl | ⟨n, n', x, rfl, rfl⟩
  · rfl
  · exact less_float_right ..

/-- The order of scalars is kept. -/
theorem less_readBack {a b : Value} (ha : a.isScalar = true) (hb : b.isScalar = true) :
    (readBack a).less (readBack b) = a.less b :=
  less_congr (readBack_scalar ha) (readBack_scalar hb)

end Value

/-- Alike values under the same names. -/
theorem Value.Alike.ofFields {fields fields' : List (String × Value)}
    (h : List.Forall₂ (fun f f' => f.1 = f'.1 ∧ Value.Alike f.2 f'.2) fields fields') :
    Value.Alike (.ofFields fields) (.ofFields fields') := by
  refine .dict _ _ ?_ ?_ (.refl _)
  · induction h with
    | nil => rfl
    | cons first _ ih => simpa [first.1] using ih
  · rw [List.map_map, List.map_map, List.forall₂_map_left_iff, List.forall₂_map_right_iff]
    exact h.imp fun _ _ same => same.2

/-! ## Variables -/

namespace Variable

/-- JSON has the value of a parameter, or the bounds of a decision variable, which are scalars. -/
def IsJson (v : Variable) : Prop :=
  match v.role with
  | .parameter _ => Plain [] v.value
  | .decision lo hi => (Plain [] lo ∧ lo.isScalar = true) ∧ (Plain [] hi ∧ hi.isScalar = true)

theorem IsJson.essence {v : Variable} (h : v.IsJson) : v.essence.IsJson := by
  rcases v with ⟨name, type, domain | ⟨lo, hi⟩, value⟩ <;> exact h

/-- JSON has the value of a parameter, or the bounds of a decision variable, which may be lists. -/
def IsPlain (v : Variable) : Prop :=
  match v.role with
  | .parameter _ => Plain [] v.value
  | .decision lo hi => Plain [] lo ∧ Plain [] hi

theorem IsJson.isPlain {v : Variable} (h : v.IsJson) : v.IsPlain := by
  rcases v with ⟨name, type, domain | ⟨lo, hi⟩, value⟩
  · exact h
  · exact ⟨h.1.1, h.2.1⟩

theorem IsPlain.essence {v : Variable} (h : v.IsPlain) : v.essence.IsPlain := by
  rcases v with ⟨name, type, domain | ⟨lo, hi⟩, value⟩ <;> exact h

/-- The variable as it comes back from JSON. -/
def readBack (v : Variable) : Variable :=
  match v.role with
  | .parameter _ => { v with value := Json.readBack v.value }
  | .decision lo hi => { v with role := .decision (Json.readBack lo) (Json.readBack hi) }

@[simp] theorem readBack_name (v : Variable) : v.readBack.name = v.name := by
  unfold readBack; split <;> rfl

@[simp] theorem readBack_kind (v : Variable) : v.readBack.kind = v.kind := by
  rcases v with ⟨name, type, domain | ⟨lo, hi⟩, value⟩ <;> rfl

theorem essence_readBack {v : Variable} (h : v.essence = v) : v.readBack.essence = v.readBack := by
  rcases v with ⟨name, type, domain | ⟨lo, hi⟩, value⟩ <;> cases h <;> rfl

/-- A variable that comes back keeps the rules. -/
theorem Sound.readBack {v : Variable} (h : v.Sound) (json : v.IsJson) : v.readBack.Sound where
  name := by rw [readBack_name]; exact h.name
  value k := by
    rcases v with ⟨name, type, domain | ⟨lo, hi⟩, value⟩
    · exact Value.readBack_ne_null (h.value rfl)
    · cases k
  bounds lo hi e := by
    rcases v with ⟨name, type, domain | ⟨lo', hi'⟩, value⟩
    · cases e
    · cases e
      rw [Value.less_readBack json.2.2 json.1.2]
      exact h.bounds lo' hi' rfl

end Variable

namespace Model

theorem isObject_variableData (name type own : Value) {k : String} (h : k ∉ ["name", "type"]) :
    Value.IsObject [(Value.str "name", name), (.str "type", type), (.str k, own)] := by
  simp only [List.mem_cons, List.not_mem_nil, or_false, not_or] at h
  refine ⟨by simp, ?_⟩
  simp [Ne.symm h.1, Ne.symm h.2]

theorem describes_readBack {v : Variable} (sound : v.Sound) (plain : v.essence = v) (json : v.IsJson) :
    Describes (readBack (variableData v)) v.readBack := by
  have sound' := sound.readBack json
  have plain' := Variable.essence_readBack plain
  rcases v with ⟨name, type, domain | ⟨lo, hi⟩, value⟩
  · have object := isObject_variableData (.str name) (.str type.spelling) value (k := "value") (by decide)
    have nameEntry := Value.entry_readBack object (k := "name") rfl
    have typeEntry := Value.entry_readBack object (k := "type") rfl
    exact describes_of_entries sound' plain' nameEntry typeEntry
      ⟨Value.entry?_readBack object "value", Value.entry?_readBack object "domain"⟩
  · have object := isObject_variableData (.str name) (.str type.spelling) (.ofList [lo, hi]) (k := "domain")
      (by decide)
    have nameEntry := Value.entry_readBack object (k := "name") rfl
    have typeEntry := Value.entry_readBack object (k := "type") rfl
    exact describes_of_entries sound' plain' nameEntry typeEntry
      ⟨Value.entry?_readBack object "value", _, Value.entry?_readBack object "domain", rfl⟩

theorem alike_variableData {v : Variable} (json : v.IsJson) :
    Value.Alike (variableData v) (variableData v.readBack) := by
  rcases v with ⟨name, type, domain | ⟨lo, hi⟩, value⟩
  · exact Value.Alike.ofFields (.cons ⟨rfl, .refl _⟩ (.cons ⟨rfl, .refl _⟩
      (.cons ⟨rfl, Json.alike_readBack json⟩ .nil)))
  · exact Value.Alike.ofFields (.cons ⟨rfl, .refl _⟩ (.cons ⟨rfl, .refl _⟩
      (.cons ⟨rfl, .list _ _ (.cons (Json.alike_readBack json.1.1)
        (.cons (Json.alike_readBack json.2.1) .nil))⟩ .nil)))

theorem isObject_constraintData (operator names : Value) :
    Value.IsObject [(Value.str "operator", operator), (.str "variables", names)] :=
  ⟨by simp, by simp⟩

theorem describesConstraint_readBack (c : Operator × String × String) :
    DescribesConstraint (readBack (Blueprint.constraintData c)) c := by
  have object := isObject_constraintData (.str c.1.spelling) (.ofList [.str c.2.1, .str c.2.2])
  have operator := Value.entry_readBack object (k := "operator") rfl
  exact ⟨operator, _, Value.entry?_readBack object "variables", rfl⟩

theorem plain_variableData {v : Variable} (plain : v.IsPlain) : Plain [] (variableData v) := by
  rcases v with ⟨name, type, domain | ⟨lo, hi⟩, value⟩
  · apply Plain.dict rfl (isObject_variableData _ _ _ (k := "value") (by decide))
    simp only [List.forall_mem_cons]
    exact ⟨.str name, .str type.spelling, plain, by simp⟩
  · apply Plain.dict rfl (isObject_variableData _ _ _ (k := "domain") (by decide))
    simp only [List.forall_mem_cons]
    refine ⟨.str name, .str type.spelling, .list rfl ?_, by simp⟩
    simpa using ⟨plain.1, plain.2⟩

theorem plain_constraintData (c : Operator × String × String) : Plain [] (Blueprint.constraintData c) := by
  apply Plain.dict rfl (isObject_constraintData _ _)
  simp only [List.forall_mem_cons]
  refine ⟨.str _, .list rfl ?_, by simp⟩
  simpa using ⟨Plain.str c.2.1, Plain.str c.2.2⟩

end Model

/-! ## Blueprints -/

namespace Blueprint

/-- The blueprint as it comes back from JSON. -/
def readBack (b : Blueprint) : Blueprint :=
  { b with parameter := b.parameter.map Variable.readBack, decision := b.decision.map Variable.readBack }

variable {b : Blueprint}

theorem members_readBack (b : Blueprint) : b.readBack.members = b.members.map Variable.readBack := by
  simp [members, readBack]

theorem names_readBack (b : Blueprint) : b.readBack.names = b.names := by
  simp [names, members_readBack, Function.comp_def]

theorem Lawful.readBack (h : b.Lawful) : b.readBack.Lawful where
  parameter v hv := by
    obtain ⟨v', hv', rfl⟩ := List.mem_map.1 hv
    rw [Variable.readBack_kind]; exact h.parameter v' hv'
  decision v hv := by
    obtain ⟨v', hv', rfl⟩ := List.mem_map.1 hv
    rw [Variable.readBack_kind]; exact h.decision v' hv'
  names := by rw [names_readBack]; exact h.names
  operands c hc := by rw [names_readBack]; exact h.operands c hc
  objective := h.objective
  objectiveMember n hn := by rw [names_readBack]; exact h.objectiveMember n hn

theorem isObject_toValue (parameter decision constraints objective objectiveVariable : Value) :
    Value.IsObject [(Value.str "parameter", parameter), (.str "decision", decision),
      (.str "constraints", constraints), (.str "objective", objective),
      (.str "objective_variable", objectiveVariable)] :=
  ⟨by simp, by simp⟩

/-- JSON has all values in the document. -/
theorem plain_toValue (plain : ∀ v ∈ b.members, v.IsPlain) : Plain [] b.toValue := by
  have declared : ∀ vs : List Variable, (∀ v ∈ vs, v.IsPlain) →
      Plain [] (.ofList (vs.map Model.variableData)) := by
    intro vs h
    apply Plain.list rfl
    intro d hd
    obtain ⟨v, hv, rfl⟩ := List.mem_map.1 hd
    exact Model.plain_variableData (h v hv)
  have constraints : Plain [] (.ofList (b.constraints.map constraintData)) := by
    apply Plain.list rfl
    intro d hd
    obtain ⟨c, -, rfl⟩ := List.mem_map.1 hd
    exact Model.plain_constraintData c
  apply Plain.dict rfl (isObject_toValue _ _ _ _ _)
  simp only [List.forall_mem_cons]
  refine ⟨declared _ fun v hv => plain v (List.mem_append_left _ hv),
    declared _ fun v hv => plain v (List.mem_append_right _ hv), constraints, .str _, ?_, by simp⟩
  cases b.objectiveVariable with
  | none => exact .null
  | some n => exact .str n

/-- What is read from JSON for the document depicts the blueprint as it comes back. -/
theorem depicts_readBack (sound : ∀ v ∈ b.members, v.Sound) (plain : ∀ v ∈ b.members, v.essence = v)
    (json : ∀ v ∈ b.members, v.IsJson) : Model.Depicts (Json.readBack b.toValue) b.readBack := by
  have entry := Value.entry?_readBack (isObject_toValue (.ofList (b.parameter.map Model.variableData))
    (.ofList (b.decision.map Model.variableData)) (.ofList (b.constraints.map constraintData))
    (.str b.objective.spelling) ((b.objectiveVariable.map Value.str).getD .null))
  have declared : ∀ vs : List Variable, (∀ v ∈ vs, v ∈ b.members) →
      List.Forall₂ Model.Describes ((vs.map Model.variableData).map Json.readBack) (vs.map Variable.readBack) := by
    intro vs sub
    rw [List.map_map, List.forall₂_map_left_iff, List.forall₂_map_right_iff, List.forall₂_same]
    intro v hv
    exact Model.describes_readBack (sound v (sub v hv)) (plain v (sub v hv)) (json v (sub v hv))
  have constraints : List.Forall₂ Model.DescribesConstraint ((b.constraints.map constraintData).map Json.readBack)
      b.constraints := by
    rw [List.map_map, List.forall₂_map_left_iff, List.forall₂_same]
    intro c _
    exact Model.describesConstraint_readBack c
  have members (key : String) (items : List Value)
      (h : Value.entry? key (Json.readBack b.toValue) = .ok (some (Json.readBack (.ofList items)))) :
      (Json.readBack b.toValue).membersOf key = .ok (items.map Json.readBack) := by
    rw [Value.readBack_ofList] at h
    exact Model.membersOf_ofList h
  exact {
    isDict := ⟨_, _, rfl⟩
    parameter := ⟨_, members "parameter" _ (entry "parameter"),
      declared b.parameter fun v hv => List.mem_append_left _ hv⟩
    decision := ⟨_, members "decision" _ (entry "decision"),
      declared b.decision fun v hv => List.mem_append_right _ hv⟩
    constraints := ⟨_, members "constraints" _ (entry "constraints"), constraints⟩
    objective := entry "objective"
    objectiveVariable := by
      have found : Value.entry? "objective_variable" (Json.readBack b.toValue) =
        .ok (some (Json.readBack ((b.objectiveVariable.map Value.str).getD .null))) := entry "objective_variable"
      rw [found]
      change _ = Except.ok (some ((b.objectiveVariable.map Value.str).getD .null))
      cases b.objectiveVariable <;> rfl }

/-- The document of what comes back is alike. -/
theorem alike_toValue (json : ∀ v ∈ b.members, v.IsJson) : Value.Alike b.toValue b.readBack.toValue := by
  have declared : ∀ vs : List Variable, (∀ v ∈ vs, v ∈ b.members) →
      Value.Alike (.ofList (vs.map Model.variableData))
        (.ofList ((vs.map Variable.readBack).map Model.variableData)) := by
    intro vs sub
    apply Value.Alike.list
    rw [List.map_map, List.forall₂_map_left_iff, List.forall₂_map_right_iff, List.forall₂_same]
    intro v hv
    exact Model.alike_variableData (json v (sub v hv))
  exact Value.Alike.ofFields (.cons ⟨rfl, declared b.parameter fun v hv => List.mem_append_left _ hv⟩
    (.cons ⟨rfl, declared b.decision fun v hv => List.mem_append_right _ hv⟩
      (List.forall₂_same.2 fun _ _ => ⟨rfl, .refl _⟩)))

end Blueprint

namespace Model

/-- JSON has all values and bounds of the model. -/
def IsJson (s : Store) (m : Model) : Prop := ∀ r ∈ m.members, (s.get r).IsJson

/-- A constructed model of which JSON has all values and bounds has a JSON text, in printable ASCII on a single
line, and a model can be read from that whose document is alike. -/
theorem ofJson_toJson {s : Store} {m : Model} (h : Constructed s m) (json : m.IsJson s) (t : Store) :
    ∃ text, m.toJson s = .ok text ∧ (∀ c ∈ text, Json.IsPrintable c) ∧
      ∃ m' t', ofJson text t = (.ok m', t') ∧ Value.Alike (m.toValue s) (m'.toValue t') := by
  have lawful := h.lawful.blueprint
  have plain := fun v => plain_blueprint (s := s) (m := m) (v := v)
  have sound := fun v => h.sound_blueprint (v := v)
  have jsonMembers : ∀ v ∈ (m.blueprint s).members, v.IsJson := by
    intro v hv
    rcases List.mem_append.1 hv with hv | hv <;> obtain ⟨r, hr, rfl⟩ := List.mem_map.1 hv
    · exact (json r (List.mem_append_left _ hr)).essence
    · exact (json r (List.mem_append_right _ hr)).essence
  have plain' : ∀ v ∈ (m.blueprint s).readBack.members, v.essence = v := by
    intro v hv
    rw [Blueprint.members_readBack] at hv
    obtain ⟨v', hv', rfl⟩ := List.mem_map.1 hv
    exact Variable.essence_readBack (plain v' hv')
  have writable := Blueprint.plain_toValue fun v hv => (jsonMembers v hv).isPlain
  obtain ⟨text, written, printable, read⟩ := Json.read_write writable
  have depicts := Blueprint.depicts_readBack sound plain jsonMembers
  have built := ofValue_eq_build lawful.readBack depicts t
  refine ⟨text, by rw [toJson, toValue_eq, written], printable, (m.blueprint s).readBack.build t,
    t.add (m.blueprint s).readBack.members, ?_, ?_⟩
  · simp only [ofJson, read, built]
  · rw [toValue_eq, toValue_eq, Blueprint.blueprint_build lawful.readBack plain']
    exact Blueprint.alike_toValue jsonMembers

/-- Texts and keys that need escapes, numbers that are not whole, and entries of their own. -/
def assorted : Value :=
  .ofFields [("ü \"1\"\n", .ofList [.str "\\\u2028", .ofDouble (.ofDecimal false 1 (-1)), .ofDouble (.infinite true)]),
    ("", .ofFields [("\x1b", .bool true), ("b", .null)])]

theorem plain_assorted : Plain [] assorted := by
  have texts : Plain [] (.ofList [.str "\\\u2028", .ofDouble (.ofDecimal false 1 (-1)), .ofDouble (.infinite true)]) :=
    .list rfl (by simpa using ⟨.str _, .float _ _, .float _ _⟩)
  have own : Plain [] (.ofFields [("\x1b", .bool true), ("b", .null)]) :=
    .dict rfl ⟨by simp, by simp⟩ (by simpa using ⟨.bool true, .null⟩)
  exact .dict rfl ⟨by simp, by simp⟩ (by simpa using ⟨texts, own⟩)

/-- The small model comes back from its JSON text, and so does a parameter whose value has all that JSON has. -/
theorem ofJson_toJson_small :
    ((Constructed smallStore small ∧ small.IsJson smallStore) ∧
      ∃ text m' t', small.toJson smallStore = .ok text ∧ ofJson text {} = (.ok m', t') ∧
        Value.Alike (small.toValue smallStore) (m'.toValue t')) ∧
    (Constructed (settingStore assorted) setting ∧ setting.IsJson (settingStore assorted)) ∧
      ∃ text m' t', setting.toJson (settingStore assorted) = .ok text ∧ (∀ c ∈ text, Json.IsPrintable c) ∧
        ofJson text smallStore = (.ok m', t') ∧
        Value.Alike (setting.toValue (settingStore assorted)) (m'.toValue t') := by
  constructor
  · have int {n : Int} (h : Integer.fits n = true) : Plain [] (.int n) := .int h
    have json : small.IsJson smallStore := by
      intro r hr
      obtain rfl | rfl | rfl : r = 0 ∨ r = 1 ∨ r = 2 := by simpa [members, small] using hr
      · exact int (n := 7) (by decide +kernel)
      · exact ⟨⟨int (n := 0) (by decide +kernel), rfl⟩, int (n := 5) (by decide +kernel), rfl⟩
      · exact ⟨⟨int (n := 1) (by decide +kernel), rfl⟩, int (n := 4) (by decide +kernel), rfl⟩
    obtain ⟨text, written, -, m', t', read, alike⟩ := ofJson_toJson constructed_small json {}
    exact ⟨⟨constructed_small, json⟩, text, m', t', written, read, alike⟩
  · have proper : assorted ≠ .null := by rintro ⟨⟩
    have constructed := constructed_setting proper
    have json : setting.IsJson (settingStore assorted) := by
      intro r hr
      obtain rfl : r = 0 := by simpa [members, setting] using hr
      rw [get_settingStore proper]
      exact plain_assorted
    obtain ⟨text, written, printable, m', t', read, alike⟩ := ofJson_toJson constructed json smallStore
    exact ⟨⟨constructed, json⟩, text, m', t', written, printable, read, alike⟩

/-! ## Bounds that cannot be written -/

/-- If a model has a JSON text, the bounds in it can be written. -/
theorem written_bounds {s : Store} {m : Model} {text : List Char} (h : m.toJson s = .ok text) {r : Ref}
    (hr : r ∈ m.decision) {lo hi : Value} (e : (s.get r).role = .decision lo hi) :
    (∃ part, Json.write true lo = .ok part) ∧ ∃ part, Json.write true hi = .ok part := by
  obtain ⟨declared, written⟩ := Json.write_entry (Blueprint.isObject_toValue ..) h
    (.str "decision", .ofList (m.decision.map fun r => variableData (s.get r))) (by simp)
  obtain ⟨described, written⟩ := Json.write_item written _ (List.mem_map_of_mem hr)
  have data : variableData (s.get r) = .ofEntries [(.str "name", .str (s.get r).name),
      (.str "type", .str (s.get r).type.spelling), (.str "domain", .ofList [lo, hi])] := by
    simp [variableData, Value.ofFields, e]
  rw [data] at written
  obtain ⟨bounds, written⟩ := Json.write_entry (isObject_variableData _ _ _ (by decide)) written
    (.str "domain", .ofList [lo, hi]) (by simp)
  exact ⟨Json.write_item written lo (by simp), Json.write_item written hi (by simp)⟩

/-- A number between zero and another one. -/
def wideStore (hi : Int) : Store :=
  let domain : Value := .ofList [.int 0, .int hi]
  (({} : Store).declare { type := .str "int", kind := .str "decision", domain := domain, name := .str "x" }).2

/-- The model of that number alone. -/
def wide : Model where
  decision := [0]
  parameter := []
  constraints := []
  objective := .satisfy
  objectiveVariable := none

theorem declared_wideStore {hi : Int} (h : 0 ≤ hi) :
    (wideStore hi).declared = #[⟨"x", .int, .decision (.int 0) (.int hi), .null⟩] := by
  have ordered : (Value.int hi).less (.int 0) = .ok false := by
    rw [Value.less_int, decide_eq_false (Int.not_lt.2 h)]
  have bounds : Declaration.checkBounds "x" (.ofList [.int 0, .int hi]) = .ok (.int 0, .int hi) := by
    have opened : (Value.ofList [.int 0, .int hi]).opened = .ofList [.int 0, .int hi] := rfl
    simp [Declaration.checkBounds, Declaration.bounds?, opened, Value.ofList, ordered]
  have type : VariableType.ofValue (.str "int") = .ok .int := by decide
  have kind : Kind.ofValue (.str "decision") = .ok .decision := by decide
  simp [wideStore, Store.declare, Declaration.toVariable, type, kind, Declaration.checkKind, bounds]

theorem constructed_wide {hi : Int} (h : 0 ≤ hi) : Constructed (wideStore hi) wide := by
  have declared := declared_wideStore h
  have lawful : wide.Lawful (wideStore hi) := by
    constructor <;> simp [wide, members, Store.get, declared, Variable.kind, Store.name]
  have made : make (wideStore hi) wide.decision wide.parameter wide.constraints (.str "satisfy")
      wide.objectiveVariable = .ok wide := make_eq_ok_iff.2 ⟨.satisfy, rfl, rfl, lawful⟩
  exact .make (.single (.declare _ _)) (by simp [wide, declared]) made

/-- A bound may be too long to be written. -/
theorem toJson_wide :
    let hi : Int := tenTo Integer.digitLimit
    Constructed (wideStore hi) wide ∧
      (∀ r ∈ wide.members, ((wideStore hi).get r).role = .decision (.int 0) (.int hi)) ∧
      ¬ ∃ text, wide.toJson (wideStore hi) = .ok text := by
  intro hi
  have positive : 0 ≤ hi := Int.natCast_nonneg _
  have long : Integer.fits hi = false := by decide +kernel
  have role : ((wideStore hi).get 0).role = .decision (.int 0) (.int hi) := by
    rw [Store.get, declared_wideStore positive]
    rfl
  refine ⟨constructed_wide positive, ?_, ?_⟩
  · intro r hr
    obtain rfl : r = 0 := by simpa [members, wide] using hr
    exact role
  · rintro ⟨text, written⟩
    obtain ⟨-, part, written⟩ := written_bounds written (r := 0) (by simp [wide]) role
    rw [Json.write, Json.writeIn, Integer.text, long] at written
    cases written

end Model

end ZincModel
