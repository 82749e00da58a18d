import ZincModel.Proofs.Model.Layout
import ZincModel.Proofs.Model.RoundTrip

/-!
# Documents in normal form

What is written for a model that was read from a document is the normal form of the document (`toValue_ofValue`): each
variable with its name, its type and what is its own, each constraint with its relation and the names of its operands,
and what is left out filled in. Nothing is lost on the way, and all stays in its order and at its place. The normal form
is told from the document alone, and it is read as a model that is written the same.
-/

namespace ZincModel

/-! ## Normal forms -/

namespace Value

/-- What stands under a key; null if nothing does. -/
def under (key : String) (d : Value) : Value :=
  match d.entry? key with
  | .ok (some v) => v
  | _ => .null

/-- The items of a list or a tuple. -/
def items (v : Value) : List Value :=
  match v.opened with
  | list _ items => items
  | tuple _ items => items
  | _ => []

end Value

namespace Model

/-- The data for a parameter without all that has no meaning in it. -/
def parameterForm (d : Value) : Value :=
  .ofFields [("name", d.under "name"), ("type", d.under "type"), ("value", d.under "value")]

/-- The data for a decision variable without all that has no meaning in it. -/
def decisionForm (d : Value) : Value :=
  .ofFields [("name", d.under "name"), ("type", d.under "type"), ("domain", .ofList (d.under "domain").items)]

/-- The data for a constraint without all that has no meaning in it. -/
def constraintForm (d : Value) : Value :=
  .ofFields [("operator", d.under "operator"), ("variables", .ofList (d.under "variables").items)]

/-- The objective of the document; where nothing is said there is nothing but the constraints to satisfy. -/
def objectiveForm (d : Value) : Value :=
  match d.under "objective" with
  | .null => .str "satisfy"
  | v => v

/-- The document without all that has no meaning in it, and with all that it leaves out. -/
def normalForm (d : Value) : Value :=
  .ofFields
    [("parameter", .ofList ((d.under "parameter").items.map parameterForm)),
     ("decision", .ofList ((d.under "decision").items.map decisionForm)),
     ("constraints", .ofList ((d.under "constraints").items.map constraintForm)),
     ("objective", objectiveForm d),
     ("objective_variable", d.under "objective_variable")]

/-- All variables of the document have texts for names. -/
structure HasNames (d : Value) : Prop where
  parameter : ∀ v ∈ (d.under "parameter").items, ∃ name, v.under "name" = .str name
  decision : ∀ v ∈ (d.under "decision").items, ∃ name, v.under "name" = .str name

end Model

/-! ## What is found under keys -/

namespace Value

variable {d v : Value} {key : String} {row : List Value}

theorem under_of_entry (h : d.entry key = .ok v) : d.under key = v := by
  unfold entry at h
  split at h
  · next l entries opened =>
    split at h
    · next found =>
      cases h
      simp only [under, entry?, opened, found]
    · cases h
  all_goals cases h

theorem under_of_entry? {found : Option Value} (h : d.entry? key = .ok found) : d.under key = found.getD .null := by
  unfold under
  rw [h]
  cases found <;> rfl

/-- The items of a list are its members. -/
theorem items_of_members (list : v.isList = true) (h : v.members = .ok row) : v.items = row := by
  cases v with
  | list l items =>
    have opened : ∃ tied, (Value.list l items).opened = .list l tied := by
      rcases l with _ | ⟨n, _ | _⟩ <;> exact ⟨_, rfl⟩
    obtain ⟨tied, opened⟩ := opened
    unfold members at h
    unfold Value.items
    rw [opened] at h ⊢
    exact Except.ok.inj h
  | _ => cases list

/-- The items of a domain are its bounds. -/
theorem items_of_bounds? {lo hi : Value} (h : Declaration.bounds? v = some (lo, hi)) : v.items = [lo, hi] := by
  unfold Declaration.bounds? at h
  unfold items
  split at h
  · next opened => rw [opened]; cases h; rfl
  · next opened => rw [opened]; cases h; rfl
  · cases h

end Value

/-! ## Declared variables -/

theorem choose_eq_ok {α : Type} {what : String} {all : List α} {spelling : α → String} {v : Value} {a : α}
    (h : choose what all spelling v = .ok a) : v = .str (spelling a) := by
  unfold choose at h
  dsimp only at h
  split at h
  · next chosen found =>
    cases h
    cases v with
    | str s =>
      dsimp only at found
      have spelled := List.find?_some found
      rw [eq_of_beq spelled]
    | _ => cases found
  · obtain ⟨shown, -, h⟩ := Except.bind_eq_ok.1 h
    cases h

/-- The variable has the parts that it is declared with. -/
structure Declaration.Makes (d : Declaration) (v : Variable) : Prop where
  type : d.type = .str v.type.spelling
  name : d.name = .null ∨ d.name = .str v.name
  value : v.kind = .parameter → v.value = d.value
  bounds : ∀ lo hi, v.role = .decision lo hi → bounds? d.domain = some (lo, hi)

namespace Declaration

variable {d : Declaration} {v : Variable}

theorem bounds?_of_checkBounds {name : String} {domain lo hi : Value} (h : checkBounds name domain = .ok (lo, hi)) :
    bounds? domain = some (lo, hi) := by
  unfold checkBounds at h
  split at h
  · simp [Except.bind_eq_ok] at h
  · next lo' hi' found =>
    split at h
    · simp [Except.bind_eq_ok] at h
    · simp [Except.bind_eq_ok] at h
    · cases h
      exact found

theorem makes_of_checkKind {type : VariableType} {kind : Kind} {name : String} (htype : d.type = .str type.spelling)
    (hname : d.name = .null ∨ d.name = .str name) (h : d.checkKind type kind name = .ok v) : d.Makes v := by
  unfold checkKind at h
  cases kind with
  | parameter =>
    dsimp only at h
    split at h
    · cases h
    · cases h
      exact ⟨htype, hname, fun _ => rfl, fun _ _ role => by cases role⟩
  | decision =>
    dsimp only at h
    split at h
    · obtain ⟨⟨lo, hi⟩, checked, h⟩ := Except.bind_eq_ok.1 h
      cases h
      refine ⟨htype, hname, fun kind => (by cases kind), fun _ _ role => ?_⟩
      cases role
      exact bounds?_of_checkBounds checked
    · cases h

/-- A declaration that succeeds makes the variable that it says. -/
theorem makes_of_toVariable {n n' : Nat} (h : d.toVariable n = (.ok v, n')) : d.Makes v := by
  unfold toVariable at h
  split at h
  · cases (Prod.mk.inj h).1
  next type htype =>
  split at h
  · cases (Prod.mk.inj h).1
  next kind hkind =>
  have spelled := choose_eq_ok htype
  split at h
  · next unnamed => exact makes_of_checkKind spelled (.inl unnamed) (Prod.mk.inj h).1
  · next name named =>
    split at h
    · cases (Prod.mk.inj h).1
    · exact makes_of_checkKind spelled (.inr named) (Prod.mk.inj h).1
  · obtain ⟨shown, -, e⟩ := Except.bind_eq_ok.1 (Prod.mk.inj h).1
    cases e

end Declaration

namespace Model

variable {d : Value} {s s' : Store} {m : Model} {key : String}

/-- What is read from data for a variable. -/
theorem declarationOf_eq_ok {k : Kind} {declaration : Declaration} (h : declarationOf k d = .ok declaration) :
    declaration = ⟨d.under "type", .str k.spelling, d.under "value", d.under "domain", d.under "name"⟩ := by
  unfold declarationOf at h
  obtain ⟨type, htype, h⟩ := Except.bind_eq_ok.1 h
  obtain ⟨value, hvalue, h⟩ := Except.bind_eq_ok.1 h
  obtain ⟨domain, hdomain, h⟩ := Except.bind_eq_ok.1 h
  obtain ⟨name, hname, h⟩ := Except.bind_eq_ok.1 h
  cases h
  rw [Value.under_of_entry htype, Value.under_of_entry? hvalue, Value.under_of_entry? hdomain,
    Value.under_of_entry hname]

/-- The variable is declared with what stands in the data. -/
def IsDeclaredBy (d : Value) (k : Kind) (v : Variable) : Prop :=
  Declaration.Makes ⟨d.under "type", .str k.spelling, d.under "value", d.under "domain", d.under "name"⟩ v

theorem variableData_parameter {v : Variable} (h : IsDeclaredBy d .parameter v) (kind : v.kind = .parameter)
    {name : String} (hname : d.under "name" = .str name) : variableData v = parameterForm d := by
  obtain ⟨vname, type, domain | ⟨lo, hi⟩, value⟩ := v
  · have named : d.under "name" = .str vname := h.name.resolve_left (by simp [hname])
    have typed : d.under "type" = .str type.spelling := h.type
    have valued : value = d.under "value" := h.value kind
    rw [parameterForm, named, typed, ← valued]
    rfl
  · cases kind

theorem variableData_decision {v : Variable} (h : IsDeclaredBy d .decision v) (kind : v.kind = .decision)
    {name : String} (hname : d.under "name" = .str name) : variableData v = decisionForm d := by
  obtain ⟨vname, type, domain | ⟨lo, hi⟩, value⟩ := v
  · cases kind
  · have named : d.under "name" = .str vname := h.name.resolve_left (by simp [hname])
    have typed : d.under "type" = .str type.spelling := h.type
    have bounds : (d.under "domain").items = [lo, hi] := Value.items_of_bounds? (h.bounds lo hi rfl)
    rw [decisionForm, named, typed, bounds]
    rfl

/-- Variables that are declared later leave those alone that were declared before. -/
theorem declareAll_keeps (k : Kind) (ds : List Value) (s : Store) : s.Keeps (declareAll k ds s).2 := by
  have any : ∀ d ∈ ds, d.ShortOr True := fun _ _ => .inl trivial
  exact (declareAll_ends any k s).1

theorem declare_eq_ok {declaration : Declaration} {r : Ref} (h : s.declare declaration = (.ok r, s')) :
    r < s'.declared.size ∧ declaration.Makes (s'.get r) := by
  unfold Store.declare at h
  split at h
  · cases (Prod.mk.inj h).1
  · next v n made =>
    cases h
    rw [Store.get_push]
    exact ⟨by simp, Declaration.makes_of_toVariable made⟩

/-- All variables that are declared are so with what stands in the data for them. -/
theorem isDeclaredBy_of_declareAll {k : Kind} {ds : List Value} {rs : List Ref}
    (h : declareAll k ds s = (.ok rs, s')) :
    List.Forall₂ (fun d r => r < s'.declared.size ∧ IsDeclaredBy d k (s'.get r)) ds rs := by
  induction ds generalizing s rs with
  | nil =>
    cases h
    exact .nil
  | cons d ds ih =>
    rw [declareAll] at h
    cases described : declarationOf k d with
    | error f =>
      rw [described] at h
      cases h
    | ok declaration =>
      rw [described] at h
      rcases declared : s.declare declaration with ⟨_ | r, s₁⟩ <;> simp only [declared] at h
      · cases h
      · rcases more : declareAll k ds s₁ with ⟨_ | rs', s₂⟩ <;> simp only [more] at h
        · cases h
        · cases h
          have keeps : s₁.Keeps s' := by
            have keeps := declareAll_keeps k ds s₁
            rwa [more] at keeps
          obtain ⟨new, makes⟩ := declare_eq_ok declared
          rw [declarationOf_eq_ok described] at makes
          refine .cons ⟨Nat.lt_of_lt_of_le new keeps.size, ?_⟩ (ih more)
          rw [keeps.get r new]
          exact makes

/-- The row under a key, where lists are meant and there is one or nothing. -/
theorem items_of_membersOf {items : List Value} (list : ListUnder key d) (h : d.membersOf key = .ok items) :
    (d.under key).items = items := by
  cases holds_documented (holds_of_membersOf h) list with
  | absent none =>
    rw [Value.under_of_entry? none]
    rfl
  | empty some null =>
    rw [Value.under_of_entry? some, show _ = Value.null from null]
    rfl
  | row some row =>
    rw [Value.under_of_entry? some]
    exact Value.items_of_members row.1 row.2

/-- Variables of a kind come out in the form of the data for them, also after others have been declared. -/
theorem map_variableData {k : Kind} {form : Value → Value} {rs : List Ref} {s'' : Store}
    (comesOut : ∀ d v, IsDeclaredBy d k v → v.kind = k → ∀ name, d.under "name" = .str name → variableData v = form d)
    (list : ListUnder key d) (names : ∀ v ∈ (d.under key).items, ∃ name, v.under "name" = .str name)
    (h : declareUnder k key d s = (.ok rs, s')) (keeps : s'.Keeps s'') (kinds : ∀ r ∈ rs, (s''.get r).kind = k) :
    rs.map (fun r => variableData (s''.get r)) = (d.under key).items.map form := by
  unfold declareUnder at h
  split at h
  · cases h
  · next items members =>
    rw [items_of_membersOf list members] at names ⊢
    have declared := isDeclaredBy_of_declareAll h
    clear h members
    induction declared with
    | nil => rfl
    | @cons d r ds rs one _ ih =>
      obtain ⟨⟨name, named⟩, names⟩ := List.forall_mem_cons.1 names
      obtain ⟨kind, kinds⟩ := List.forall_mem_cons.1 kinds
      obtain ⟨new, made⟩ := one
      rw [← keeps.get r new] at made
      rw [List.map_cons, List.map_cons, comesOut d (s''.get r) made kind name named, ih kinds names]

/-- A constraint comes out in the form of the data for it. -/
theorem constraintData_eq {refs : List Ref} {c : Constraint}
    (list : ∀ v, d.entry? "variables" = .ok (some v) → v.isList = true)
    (h : constraintOf (named s refs) d = .ok c) : constraintData s c = constraintForm d := by
  unfold constraintOf at h
  obtain ⟨found, entry, h⟩ := Except.bind_eq_ok.1 h
  obtain ⟨names, members, h⟩ := Except.bind_eq_ok.1 h
  obtain ⟨operands, resolved, h⟩ := Except.bind_eq_ok.1 h
  obtain ⟨operator, hoperator, h⟩ := Except.bind_eq_ok.1 h
  obtain ⟨-, texts⟩ := map_of_resolve resolved
  obtain ⟨o, spelled, h⟩ := Except.bind_eq_ok.1 h
  match operands, texts, h with
  | [left, right], texts, h =>
    cases h
    subst texts
    have row : (d.under "variables").items = [.str (s.name left), .str (s.name right)] := by
      rw [Value.under_of_entry? entry]
      cases found with
      | none => cases members
      | some v => exact Value.items_of_members (list v entry) members
    rw [constraintForm, Value.under_of_entry hoperator, choose_eq_ok spelled, row]
    rfl
  | [], _, h => cases h
  | [_], _, h => cases h
  | _ :: _ :: _ :: _, _, h => cases h

theorem map_constraintData {refs : List Ref} {items : List Value} {cs : List Constraint}
    (lists : ∀ c ∈ items, ∀ v, c.entry? "variables" = .ok (some v) → v.isList = true)
    (h : items.mapM (constraintOf (named s refs)) = .ok cs) : cs.map (constraintData s) = items.map constraintForm := by
  have each := Except.forall₂_of_mapM h
  clear h
  induction each with
  | nil => rfl
  | cons one _ ih =>
    obtain ⟨list, lists⟩ := List.forall_mem_cons.1 lists
    rw [List.map_cons, List.map_cons, constraintData_eq list one, ih lists]

/-! ## Documents -/

/-- The parts that a model is made of, once its variables are declared. -/
structure Assembles (s : Store) (parameter decision : List Ref) (d : Value) (m : Model) : Prop where
  parameter : m.parameter = parameter
  decision : m.decision = decision
  constraints : ∃ items, d.membersOf "constraints" = .ok items ∧
    items.mapM (constraintOf (named s m.members)) = .ok m.constraints
  objective : objectiveForm d = .str m.objective.spelling
  objectiveVariable : d.under "objective_variable" = (m.objectiveVariable.map fun r => Value.str (s.name r)).getD .null
  lawful : m.Lawful s

theorem assembles_of_ofParts {parameter decision : List Ref} (h : ofParts s parameter decision d = .ok m) :
    Assembles s parameter decision d m := by
  unfold ofParts at h
  obtain ⟨items, members, h⟩ := Except.bind_eq_ok.1 h
  obtain ⟨constraints, related, h⟩ := Except.bind_eq_ok.1 h
  obtain ⟨found, entry, h⟩ := Except.bind_eq_ok.1 h
  have made (r? : Option Ref)
      (named : d.under "objective_variable" = (r?.map fun r => Value.str (s.name r)).getD .null) (h : (do
        let objective ← d.entry? "objective"
        make s decision parameter constraints (objective.getD (.str "satisfy")) r?) = .ok m) :
      Assembles s parameter decision d m := by
    obtain ⟨objective, goal, h⟩ := Except.bind_eq_ok.1 h
    obtain ⟨o, spelled, rfl, lawful⟩ := make_eq_ok_iff.1 h
    have spelled := choose_eq_ok spelled
    refine ⟨rfl, rfl, ⟨items, members, related⟩, ?_, named, lawful⟩
    rw [objectiveForm, Value.under_of_entry? goal]
    cases objective with
    | none => exact spelled
    | some v =>
      cases (spelled : v = _)
      rfl
  dsimp only at h
  split at h
  · exact made none (Value.under_of_entry? entry) h
  · have null : d.under "objective_variable" = .null := Value.under_of_entry? entry
    exact made none null h
  · next v _ =>
    obtain ⟨r?, named, h⟩ := Except.bind_eq_ok.1 h
    obtain ⟨r, resolved, rfl⟩ := Except.map_eq_ok.1 named
    refine made (some r) ?_ h
    rw [Value.under_of_entry? entry, (resolve_eq_ok resolved).2]
    rfl

/-- A model that was read from a document is written in the normal form of it. -/
theorem toValue_eq_normalForm (h : ofValue d s = (.ok m, s')) (lists : HasLists d) (names : HasNames d) :
    m.toValue s' = normalForm d := by
  have dictionary : ofValue d s = ((ofDict d s).1.mapError malformed, (ofDict d s).2) := by
    cases d with
    | dict l es => rfl
    | _ => cases h
  rw [dictionary] at h
  obtain ⟨made, rfl⟩ := Prod.mk.inj h
  rw [Except.mapError_eq_ok, ofDict] at made
  rw [ofDict]
  rcases hp : declareUnder .parameter "parameter" d s with ⟨_ | parameter, s₁⟩ <;> simp only [hp] at made ⊢
  · cases made
  rcases hd : declareUnder .decision "decision" d s₁ with ⟨_ | decision, s₂⟩ <;> simp only [hd] at made ⊢
  · cases made
  obtain ⟨rfl, rfl, ⟨items, members, related⟩, objective, objectiveVariable, lawful⟩ := assembles_of_ofParts made
  have keeps : s₁.Keeps s₂ := by
    have keeps := (declareUnder_ends (.inl trivial : d.ShortOr True) .decision "decision" s₁).1
    rwa [hd] at keeps
  have parameters := map_variableData (fun d v made kind name => variableData_parameter made kind)
    lists.parameter names.parameter hp keeps lawful.parameter
  have decisions := map_variableData (fun d v made kind name => variableData_decision made kind)
    lists.decision names.decision hd (.refl s₂) lawful.decision
  have constraints := map_constraintData (lists.operands items members) related
  rw [toValue, normalForm, parameters, decisions, constraints, objective, objectiveVariable,
    items_of_membersOf lists.constraints members]
  cases m.objectiveVariable <;> rfl

/-- What is written for a lawful model of variables that keep their rules is read as a model that is written the
same. -/
theorem ofValue_toValue_again (lawful : m.Lawful s) (sound : ∀ r ∈ m.members, (s.get r).Sound) (t : Store) :
    ∃ m' t', ofValue (m.toValue s) t = (.ok m', t') ∧ m'.toValue t' = m.toValue s := by
  have plain := fun v => plain_blueprint (s := s) (m := m) (v := v)
  have soundBlueprint : ∀ v ∈ (m.blueprint s).members, v.Sound := by
    intro v hv
    rcases List.mem_append.1 hv with hv | hv <;> obtain ⟨r, hr, rfl⟩ := List.mem_map.1 hv
    · exact (sound r (List.mem_append_left _ hr)).essence
    · exact (sound r (List.mem_append_right _ hr)).essence
  have again : ((m.blueprint s).build t).blueprint (t.add (m.blueprint s).members) = m.blueprint s :=
    Blueprint.blueprint_build lawful.blueprint plain t
  have read := ofValue_eq_build lawful.blueprint (depicts_toValue soundBlueprint plain) t
  refine ⟨_, _, toValue_eq s m ▸ read, ?_⟩
  rw [toValue_eq, again, ← toValue_eq]

/-- What is written for a model that was read from a document is the normal form of the document, and what is read
from that in turn is written the same. -/
theorem toValue_ofValue (h : ofValue d s = (.ok m, s')) (lists : HasLists d) (names : HasNames d) :
    m.toValue s' = normalForm d ∧
      ∀ t, ∃ m' t', ofValue (normalForm d) t = (.ok m', t') ∧ m'.toValue t' = normalForm d := by
  have written : m.toValue s' = normalForm d := toValue_eq_normalForm h lists names
  have restored : Restored s s' m := by
    have ends := (ofValue_ends d s).2
    rw [h] at ends
    exact ends.result
  have sound : ∀ r ∈ m.members, (s'.get r).Sound := by
    intro r hr
    rcases List.mem_append.1 hr with hr | hr
    · exact (restored.parameter r hr).fresh.sound
    · exact (restored.decision r hr).fresh.sound
  refine ⟨written, fun t => ?_⟩
  rw [← written]
  exact ofValue_toValue_again restored.lawful sound t

/-- A document with entries that have no meaning, and without an objective. -/
def wordyDocument : Value :=
  .ofFields
    [("note", .str "a limit"),
     ("parameter", .ofList
       [.ofFields [("domain", .int 1), ("value", .int 7), ("type", .str "int"), ("name", .str "cap")]]),
     ("decision", .ofList
       [.ofFields [("name", .str "x"), ("value", .null), ("type", .str "int"), ("domain", .ofTuple [.int 0, .int 5])]]),
     ("constraints", .ofList
       [.ofFields [("variables", .ofList [.str "x", .str "cap"]), ("operator", .str "<"), ("note", .null)]]),
     ("objective_variable", .null)]

theorem toValue_wordyDocument :
    HasLists wordyDocument ∧ HasNames wordyDocument ∧ ∃ m s', ofValue wordyDocument {} = (.ok m, s') ∧
      m.toValue s' =
        .ofFields
          [("parameter", .ofList [.ofFields [("name", .str "cap"), ("type", .str "int"), ("value", .int 7)]]),
           ("decision", .ofList
             [.ofFields [("name", .str "x"), ("type", .str "int"), ("domain", .ofList [.int 0, .int 5])]]),
           ("constraints", .ofList
             [.ofFields [("operator", .str "<"), ("variables", .ofList [.str "x", .str "cap"])]]),
           ("objective", .str "satisfy"),
           ("objective_variable", .null)] := by
  have listed {key : String} {v w : Value} (entry : wordyDocument.entry? key = .ok (some v)) (list : v.isList = true)
      (found : wordyDocument.entry? key = .ok (some w)) : w = .null ∨ w.isList = true := by
    rw [entry] at found
    cases found
    exact .inr list
  have lists : HasLists wordyDocument := by
    refine ⟨fun _ => listed rfl rfl, fun _ => listed rfl rfl, fun _ => listed rfl rfl, ?_⟩
    intro items members c hc v found
    obtain rfl : _ = items := Except.ok.inj ((rfl : wordyDocument.membersOf "constraints" = .ok _).symm.trans members)
    have operands : c.entry? "variables" = .ok (some (.ofList [.str "x", .str "cap"])) := by
      rw [List.mem_singleton.1 hc]
      rfl
    obtain rfl := Option.some.inj (Except.ok.inj (operands.symm.trans found))
    rfl
  have names : HasNames wordyDocument :=
    ⟨List.forall_mem_singleton.2 ⟨"cap", rfl⟩, List.forall_mem_singleton.2 ⟨"x", rfl⟩⟩
  have accepts : (ofValue wordyDocument {}).1.toBool = true := by decide +kernel
  rcases h : ofValue wordyDocument {} with ⟨f | m, s'⟩
  · rw [h] at accepts
    cases accepts
  · refine ⟨lists, names, m, s', rfl, ?_⟩
    exact (toValue_ofValue h lists names).1

end Model

end ZincModel
