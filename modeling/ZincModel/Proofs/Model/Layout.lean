import ZincModel.Proofs.Model.Refusal

/-!
# The layout of documents

A document is meant to have null, or a list of dictionaries, under the keys of its parameters, decision variables and
constraints, and a list of two names under the key of the operands of a constraint. More is accepted: what counts as
false stands for nothing, and anything that can be gone through stands for a list of its members. So a document that
is accepted has the layout in the wider manner, and in the narrower one exactly if it has lists wherever lists are
meant (`ofValue_layout`).
-/

namespace ZincModel

open Except (Ends)

namespace Value

/-- The value is a dictionary. -/
def isMapping : Value → Bool
  | dict .. => true
  | _ => false

/-- The value is a list. -/
def isList : Value → Bool
  | list .. => true
  | _ => false

variable {d v : Value} {key : String}

theorem isMapping_of_opened {l : Option Label} {entries : List (Value × Value)} (h : d.opened = .dict l entries) :
    d.isMapping = true := by
  unfold opened at h
  split at h
  · split at h <;> cases h
  · split at h <;> cases h
  · rfl
  · rw [h]
    rfl

theorem isMapping_of_entry (h : d.entry key = .ok v) : d.isMapping = true := by
  unfold entry at h
  split at h
  · next e => exact isMapping_of_opened e
  all_goals cases h

theorem isMapping_of_entry? {found : Option Value} (h : d.entry? key = .ok found) : d.isMapping = true := by
  unfold entry? at h
  split at h
  · next e => exact isMapping_of_opened e
  · cases h

/-- Lists and null that count as false have no members. -/
theorem members_of_isList (list : v.isList = true) (empty : v.isTrue = false) : v.members = .ok [] := by
  cases v with
  | list l items =>
    have nothing : items = [] := by simpa [isTrue] using empty
    subst nothing
    rcases l with _ | ⟨n, _ | _⟩ <;> rfl
  | _ => cases list

end Value

namespace Model

/-! ## Manners -/

/-- How freely the rows of a document may be written. -/
structure Manner where
  /-- The value stands for a row without members. -/
  empty : Value → Prop
  /-- The value stands for a row of these members. -/
  row : Value → List Value → Prop

/-- How documents are meant to be written. -/
def documented : Manner := ⟨(· = .null), fun v items => v.isList = true ∧ v.members = .ok items⟩

/-- How documents may be written to be accepted. -/
def accepted : Manner := ⟨(·.isTrue = false), fun v items => v.members = .ok items⟩

/-- Under the key of the document stands a row of these members, or nothing. -/
inductive Manner.Holds (manner : Manner) (d : Value) (key : String) : List Value → Prop
  | absent : d.entry? key = .ok none → Holds manner d key []
  | empty {v : Value} : d.entry? key = .ok (some v) → manner.empty v → Holds manner d key []
  | row {v : Value} {items : List Value} :
    d.entry? key = .ok (some v) → manner.row v items → Holds manner d key items

/-- The data holds a row of two texts, the names of the operands of the constraint, which are among the variables. -/
def Manner.Relates (manner : Manner) (s : Store) (refs : List Ref) (d : Value) (c : Constraint) : Prop :=
  (∃ v left right, d.entry? "variables" = .ok (some v) ∧ manner.row v [.str left, .str right] ∧
    c.operands.map s.name = [left, right]) ∧ ∀ r ∈ c.operands, r ∈ refs

/-- Under the key stands a row of dictionaries, one for each of the variables. -/
def Manner.Lists (manner : Manner) (d : Value) (key : String) (refs : List Ref) : Prop :=
  ∃ items, manner.Holds d key items ∧ (∀ v ∈ items, v.isMapping = true) ∧ items.length = refs.length

/-- The document has the layout of documents in the manner, with the parts of the model. -/
structure Manner.LaidOut (manner : Manner) (s : Store) (m : Model) (d : Value) : Prop where
  parameter : manner.Lists d "parameter" m.parameter
  decision : manner.Lists d "decision" m.decision
  constraints : ∃ items, manner.Holds d "constraints" items ∧ (∀ v ∈ items, v.isMapping = true) ∧
    List.Forall₂ (manner.Relates s m.members) items m.constraints

/-- Under the key stands nothing, null or a list. -/
def ListUnder (key : String) (d : Value) : Prop :=
  ∀ v, d.entry? key = .ok (some v) → v = .null ∨ v.isList = true

/-- The document has lists or null wherever lists are meant. -/
structure HasLists (d : Value) : Prop where
  parameter : ListUnder "parameter" d
  decision : ListUnder "decision" d
  constraints : ListUnder "constraints" d
  operands : ∀ items, d.membersOf "constraints" = .ok items →
    ∀ c ∈ items, ∀ v, c.entry? "variables" = .ok (some v) → v.isList = true

variable {d : Value} {key : String} {items : List Value} {s : Store} {m : Model}

/-- A row that is accepted is a list if there is one under the key. -/
theorem holds_documented (h : accepted.Holds d key items) (list : ListUnder key d) :
    documented.Holds d key items := by
  cases h with
  | absent none => exact .absent none
  | empty some empty =>
    rcases list _ some with null | list
    · exact .empty some null
    · exact .row some ⟨list, Value.members_of_isList list empty⟩
  | row some members =>
    rcases list _ some with rfl | list
    · cases members
    · exact .row some ⟨list, members⟩

/-- A row that is written as documented is gone through. -/
theorem membersOf_of_holds (h : documented.Holds d key items) : d.membersOf key = .ok items := by
  unfold Value.membersOf
  cases h with
  | absent none =>
    rw [none]
    rfl
  | empty some null =>
    rw [some, show _ = Value.null from null]
    rfl
  | @row v items some list =>
    rw [some, Except.ok_bind]
    by_cases true : v.isTrue = true
    · simpa only [true, if_true] using list.2
    · have empty := Value.members_of_isList list.1 (Bool.eq_false_iff.2 true)
      rw [list.2] at empty
      cases empty
      simp only [true, Bool.false_eq_true, if_false, Except.pure_eq]

theorem ListUnder.of_holds (h : documented.Holds d key items) : ListUnder key d := by
  intro v found
  cases h with
  | absent none => rw [none] at found; cases found
  | empty some null =>
    rw [some] at found
    cases found
    exact .inl null
  | row some list =>
    rw [some] at found
    cases found
    exact .inr list.1

/-! ## What is accepted -/

theorem holds_of_membersOf (h : d.membersOf key = .ok items) : accepted.Holds d key items := by
  unfold Value.membersOf at h
  obtain ⟨found, e, h⟩ := Except.bind_eq_ok.1 h
  cases found with
  | none =>
    cases h
    exact .absent e
  | some v =>
    by_cases true : v.isTrue = true
    · simp only [true, if_true] at h
      exact .row e h
    · simp only [true, Bool.false_eq_true, if_false] at h
      cases h
      exact .empty e (Bool.eq_false_iff.2 true)

/-- All that is declared is described by dictionaries, each of which declares one variable. -/
theorem declareAll_eq_ok {k : Kind} {ds : List Value} {s s' : Store} {rs : List Ref}
    (h : declareAll k ds s = (.ok rs, s')) : (∀ d ∈ ds, d.isMapping = true) ∧ ds.length = rs.length := by
  induction ds generalizing s rs with
  | nil =>
    cases h
    exact ⟨by simp, rfl⟩
  | cons d ds ih =>
    rw [declareAll] at h
    cases described : declarationOf k d with
    | error f =>
      rw [described] at h
      cases h
    | ok declaration =>
      rw [described] at h
      rcases declared : s.declare declaration with ⟨_ | r, s₁⟩ <;> simp only [declared] at h
      · cases h
      · rcases more : declareAll k ds s₁ with ⟨_ | rs', s₂⟩ <;> simp only [more] at h
        · cases h
        · cases h
          obtain ⟨mappings, length⟩ := ih more
          obtain ⟨type, entry, -⟩ := Except.bind_eq_ok.1 described
          exact ⟨List.forall_mem_cons.2 ⟨Value.isMapping_of_entry entry, mappings⟩, congrArg (· + 1) length⟩

theorem declareUnder_eq_ok {k : Kind} {s s' : Store} {rs : List Ref} (h : declareUnder k key d s = (.ok rs, s')) :
    accepted.Lists d key rs := by
  unfold declareUnder at h
  split at h
  · cases h
  · next ds members =>
    obtain ⟨mappings, length⟩ := declareAll_eq_ok h
    exact ⟨ds, holds_of_membersOf members, mappings, length⟩

/-- Only the name of a variable among those with names refers to it. -/
theorem resolve_eq_ok {refs : List Ref} {unknown : String → ModelFault} {v : Value} {r : Ref}
    (h : resolve (named s refs) unknown v = .ok r) : r ∈ refs ∧ v = .str (s.name r) := by
  unfold resolve at h
  split at h
  · cases h
  · dsimp only at h
    split at h
    · next q found =>
      cases h
      cases v with
      | str name =>
        obtain ⟨before, after, parts, -⟩ := List.lookup_eq_some_iff.1 found
        have here : (name, r) ∈ named s refs := by simp [parts]
        obtain ⟨q, hq, same⟩ := List.mem_map.1 here
        cases same
        exact ⟨List.mem_reverse.1 hq, rfl⟩
      | _ => cases found
    · obtain ⟨t, -, h⟩ := Except.bind_eq_ok.1 h
      cases h

theorem map_of_resolve {refs : List Ref} {unknown : String → ModelFault} {names : List Value} {operands : List Ref}
    (h : names.mapM (resolve (named s refs) unknown) = .ok operands) :
    (∀ r ∈ operands, r ∈ refs) ∧ names = operands.map fun r => .str (s.name r) := by
  have each := Except.forall₂_of_mapM h
  clear h
  induction each with
  | nil => exact ⟨by simp, rfl⟩
  | cons one _ ih =>
    obtain ⟨here, name⟩ := resolve_eq_ok one
    exact ⟨List.forall_mem_cons.2 ⟨here, ih.1⟩, by rw [name, ih.2, List.map_cons]⟩

theorem constraintOf_eq_ok {refs : List Ref} {c : Constraint} (h : constraintOf (named s refs) d = .ok c) :
    accepted.Relates s refs d c := by
  unfold constraintOf at h
  obtain ⟨found, e, h⟩ := Except.bind_eq_ok.1 h
  obtain ⟨names, members, h⟩ := Except.bind_eq_ok.1 h
  obtain ⟨operands, resolved, h⟩ := Except.bind_eq_ok.1 h
  obtain ⟨operator, -, h⟩ := Except.bind_eq_ok.1 h
  obtain ⟨known, texts⟩ := map_of_resolve resolved
  obtain ⟨o, -, h⟩ := Except.bind_eq_ok.1 h
  match operands, known, texts, h with
  | [left, right], known, texts, h =>
    cases h
    subst texts
    cases found with
    | none => cases members
    | some v => exact ⟨⟨v, _, _, e, members, rfl⟩, known⟩
  | [], _, _, h => cases h
  | [_], _, _, h => cases h
  | _ :: _ :: _ :: _, _, _, h => cases h

/-- All constraints are described by dictionaries, each of which relates the operands of one. -/
theorem relates_of_mapM {refs : List Ref} {cs : List Constraint}
    (h : items.mapM (constraintOf (named s refs)) = .ok cs) :
    (∀ v ∈ items, v.isMapping = true) ∧ List.Forall₂ (accepted.Relates s refs) items cs := by
  have each := Except.forall₂_of_mapM h
  clear h
  induction each with
  | nil => exact ⟨by simp, .nil⟩
  | cons one _ ih =>
    obtain ⟨found, entry, -⟩ := Except.bind_eq_ok.1 one
    exact ⟨List.forall_mem_cons.2 ⟨Value.isMapping_of_entry? entry, ih.1⟩, .cons (constraintOf_eq_ok one) ih.2⟩

theorem ofParts_eq_ok {parameter decision : List Ref} (h : ofParts s parameter decision d = .ok m) :
    m.parameter = parameter ∧ m.decision = decision ∧
      ∃ items, accepted.Holds d "constraints" items ∧ (∀ v ∈ items, v.isMapping = true) ∧
        List.Forall₂ (accepted.Relates s m.members) items m.constraints := by
  unfold ofParts at h
  obtain ⟨items, members, h⟩ := Except.bind_eq_ok.1 h
  obtain ⟨constraints, made, h⟩ := Except.bind_eq_ok.1 h
  obtain ⟨found, -, h⟩ := Except.bind_eq_ok.1 h
  have parts {r? : Option Ref} (h : (do
      let objective ← d.entry? "objective"
      make s decision parameter constraints (objective.getD (.str "satisfy")) r?) = .ok m) :
      m.parameter = parameter ∧ m.decision = decision ∧ m.constraints = constraints := by
    obtain ⟨objective, -, h⟩ := Except.bind_eq_ok.1 h
    obtain ⟨o, -, rfl, -⟩ := make_eq_ok_iff.1 h
    exact ⟨rfl, rfl, rfl⟩
  have whole : m.parameter = parameter ∧ m.decision = decision ∧ m.constraints = constraints := by
    dsimp only at h
    split at h
    · exact parts h
    · exact parts h
    · obtain ⟨r?, -, h⟩ := Except.bind_eq_ok.1 h
      exact parts h
  obtain ⟨rfl, rfl, rfl⟩ := whole
  have related := relates_of_mapM made
  exact ⟨rfl, rfl, items, holds_of_membersOf members, related.1, related.2⟩

/-- A document that is accepted has the layout that is accepted. -/
theorem ofValue_eq_ok {s' : Store} (h : ofValue d s = (.ok m, s')) : accepted.LaidOut s' m d := by
  have dictionary : ofValue d s = ((ofDict d s).1.mapError malformed, (ofDict d s).2) := by
    cases d with
    | dict l es => rfl
    | _ => cases h
  rw [dictionary] at h
  obtain ⟨made, rfl⟩ := Prod.mk.inj h
  rw [Except.mapError_eq_ok, ofDict] at made
  rw [ofDict]
  rcases hp : declareUnder .parameter "parameter" d s with ⟨_ | parameter, s₁⟩ <;> simp only [hp] at made ⊢
  · cases made
  rcases hd : declareUnder .decision "decision" d s₁ with ⟨_ | decision, s₂⟩ <;> simp only [hd] at made ⊢
  · cases made
  obtain ⟨rfl, rfl, constraints⟩ := ofParts_eq_ok made
  exact ⟨declareUnder_eq_ok hp, declareUnder_eq_ok hd, constraints⟩

/-- A document that is accepted is written as documented exactly if it has lists wherever lists are meant. -/
theorem laidOut_iff (h : accepted.LaidOut s m d) : documented.LaidOut s m d ↔ HasLists d := by
  constructor
  · intro laid
    obtain ⟨items, holds, -, related⟩ := laid.constraints
    obtain ⟨ps, parameters, -⟩ := laid.parameter
    obtain ⟨ds, decisions, -⟩ := laid.decision
    refine ⟨.of_holds parameters, .of_holds decisions, .of_holds holds, fun items' members c hc v found => ?_⟩
    rw [membersOf_of_holds holds] at members
    cases members
    have each : List.Forall₂ (fun c c' =>
        (∃ w, c.entry? "variables" = .ok (some w) ∧ w.isList = true) ∧ documented.Relates s m.members c c')
        items m.constraints := by
      refine related.imp fun c c' one => ⟨?_, one⟩
      obtain ⟨⟨w, left, right, entry, row, -⟩, -⟩ := one
      exact ⟨w, entry, row.1⟩
    obtain ⟨w, entry, list⟩ := ((List.forall₂_and_left _ _).1 each).1 c hc
    rw [entry] at found
    cases found
    exact list
  · intro lists
    obtain ⟨ps, parameters, mappings, length⟩ := h.parameter
    obtain ⟨ds, decisions, mappings', length'⟩ := h.decision
    obtain ⟨items, holds, mappings'', related⟩ := h.constraints
    have written := holds_documented holds lists.constraints
    refine ⟨⟨ps, holds_documented parameters lists.parameter, mappings, length⟩,
      ⟨ds, holds_documented decisions lists.decision, mappings', length'⟩, items, written, mappings'', ?_⟩
    have operands := lists.operands items (membersOf_of_holds written)
    refine ((List.forall₂_and_left items m.constraints).2 ⟨operands, related⟩).imp ?_
    rintro c c' ⟨list, ⟨v, left, right, entry, members, names⟩, known⟩
    exact ⟨⟨v, left, right, entry, ⟨list v entry, members⟩, names⟩, known⟩

/-- A document is refused as data for a model, unless a long integer in it hinders that, or it is accepted and has the
layout that is accepted. It has the documented layout exactly if it has null or lists wherever lists are meant. -/
theorem ofValue_layout (d : Value) (s : Store) :
    (∃ f s', ofValue d s = (.error f, s') ∧
      (f.IsOfModel ∨ f = .content .integerUnwritable ∧ d.isShort = false)) ∨
    ∃ m s', ofValue d s = (.ok m, s') ∧ accepted.LaidOut s' m d ∧ (documented.LaidOut s' m d ↔ HasLists d) := by
  obtain ⟨-, ends⟩ := ofValue_ends d s
  rcases h : ofValue d s with ⟨f | m, s'⟩
  · rw [h] at ends
    exact .inl ⟨f, s', rfl, ends.fault⟩
  · have laid := ofValue_eq_ok h
    exact .inr ⟨m, s', rfl, laid, laidOut_iff laid⟩

/-- A document with a text for the operands of a constraint, each character of which is the name of a variable. -/
def looseDocument : Value :=
  .ofFields
    [("decision", .ofList
      [.ofFields [("name", .str "x"), ("type", .str "int"), ("domain", .ofList [.int 0, .int 1])],
       .ofFields [("name", .str "y"), ("type", .str "int"), ("domain", .ofList [.int 0, .int 1])]]),
     ("constraints", .ofList [.ofFields [("operator", .str "!="), ("variables", .str "xy")]])]

/-- A text is taken for the names of operands. -/
theorem ofValue_looseDocument :
    ∃ m s', ofValue looseDocument {} = (.ok m, s') ∧ ¬documented.LaidOut s' m looseDocument := by
  have accepts : (ofValue looseDocument {}).1.toBool = true := by decide +kernel
  rcases h : ofValue looseDocument {} with ⟨f | m, s'⟩
  · rw [h] at accepts
    cases accepts
  · refine ⟨m, s', rfl, fun laid => ?_⟩
    have lists := ((laidOut_iff (ofValue_eq_ok h)).1 laid).operands _ rfl _ List.mem_cons_self (.str "xy") rfl
    cases lists

end Model

end ZincModel
