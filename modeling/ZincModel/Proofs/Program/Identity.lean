import ZincModel.Proofs.Json.Consuming
import ZincModel.Proofs.Json.RoundTrip
import ZincModel.Proofs.Program.Lines
import ZincModel.Proofs.Program.Quotation

/-!
# The program tells the model

Two models that have the same program are the same but for what programs do not show (`source_determines`), if
names are identifiers and values are of the declared types. A program is cut into lines at its newlines, which
stand in no line; the start of a line tells the part of the program it is in. Within a line a literal is read as a
value of JSON, which does not depend on what stands behind it (`readValue_literal`), and names end at the next blank.
-/

namespace ZincModel

/-! ## What is of its declared type -/

/-- The value is of the type: an integer that can be written, a finite number, a truth value or a text. -/
inductive Value.IsOf : VariableType → Value → Prop
  | int {n : Int} : Integer.fits n = true → IsOf .int (.int n)
  | float (number : Option Nat) (negative : Bool) (code : Fin Double.infinityCode) :
      IsOf .float (.float number (.finite negative code))
  | bool (b : Bool) : IsOf .bool (.bool b)
  | str (s : String) : IsOf .string (.str s)

/-- The literal for this type shows the value as what it is: a number where numbers are declared, a text where texts
are, and a truth value anywhere. -/
inductive Value.IsShown : VariableType → Value → Prop
  | int {type : VariableType} (number : type = .int ∨ type = .float) (n : Int) : IsShown type (.int n)
  | float {type : VariableType} (number : type = .int ∨ type = .float) (n : Option Nat) (negative : Bool)
      (code : Fin Double.infinityCode) : IsShown type (.float n (.finite negative code))
  | bool (type : VariableType) (b : Bool) : IsShown type (.bool b)
  | str (s : String) : IsShown .string (.str s)

theorem Value.IsOf.isShown {type : VariableType} {v : Value} (h : v.IsOf type) : v.IsShown type := by
  cases h with
  | int _ => exact .int (.inl rfl) _
  | float n negative code => exact .float (.inr rfl) n negative code
  | bool b => exact .bool _ b
  | str s => exact .str s

/-- The value of a parameter, or the bounds of a decision variable, are of the declared type. -/
def Variable.IsTyped (v : Variable) : Prop :=
  match v.role with
  | .parameter _ => v.value.IsOf v.type
  | .decision lo hi => lo.IsOf v.type ∧ hi.IsOf v.type

/-- The letters of ASCII and the underscore. -/
def isIdentifierStart (c : Char) : Bool := ('a' ≤ c && c ≤ 'z') || ('A' ≤ c && c ≤ 'Z') || c == '_'

/-- The name is made of letters, digits and underscores, and does not start with a digit. -/
def isIdentifier (name : String) : Bool :=
  match name.toList with
  | [] => false
  | c :: s => isIdentifierStart c && s.all fun c => isIdentifierStart c || Text.isDigit c

/-- The variables of the model have identifiers for names, and what is of their types. -/
def Model.IsTyped (s : Store) (m : Model) : Prop :=
  ∀ r ∈ m.members, isIdentifier (s.name r) = true ∧ (s.get r).IsTyped

/-- Type, name and value of two parameters are the same. -/
structure Variable.SameParameter (v w : Variable) : Prop where
  type : v.type = w.type
  name : v.name = w.name
  value : v.value.same w.value = true

/-- Type, name and bounds of two decision variables are the same. -/
structure Variable.SameDecision (v w : Variable) : Prop where
  type : v.type = w.type
  name : v.name = w.name
  bounds : ∃ lo hi lo' hi', v.role = .decision lo hi ∧ w.role = .decision lo' hi' ∧
    lo.same lo' = true ∧ hi.same hi' = true

namespace Program

/-! ## Literals -/

/-- The value as it is read from its literal. -/
def unnumbered : Value → Value
  | .float _ x => .float none x
  | v => v

/-- What is of a type tells the type. -/
theorem same_of_unnumbered_eq {type type' : VariableType} {v w : Value} (hv : v.IsOf type) (hw : w.IsOf type')
    (h : unnumbered v = unnumbered w) : type = type' ∧ v.same w = true := by
  cases hv <;> cases hw <;> cases h <;> exact ⟨rfl, by simp [Value.same]⟩

theorem literal_int {type : VariableType} (number : type = .int ∨ type = .float) (n : Int) :
    literal type (.int n) = Integer.text n := by
  rcases number with rfl | rfl <;> rfl

/-- A literal that shows its value is read as the value, in front of what ends a number. -/
theorem readValue_literal {type : VariableType} {v : Value} {w rest : List Char} (h : v.IsShown type)
    (written : literal type v = .ok w) (closes : Json.Closes rest) :
    Json.readValue 1 (w ++ rest) = .ok (unnumbered v, rest) := by
  cases h with
  | int number n =>
    rw [literal_int number] at written
    obtain ⟨fits, rfl⟩ := Value.Integer.text_eq_ok written
    exact Json.readValue_scalar (Json.readScalar_numeral fits closes) 0
  | float number n negative code =>
    have spelled : w = Double.text (.finite negative code) := by
      rcases number with rfl | rfl <;> exact (Except.ok.inj written).symm
    rw [spelled]
    exact Json.readValue_scalar (Json.readScalar_finite negative code closes) 0
  | bool type b =>
    have spelled : w = if b then "true".toList else "false".toList := by
      cases type <;> exact (Except.ok.inj written).symm
    rw [spelled]
    cases b <;> rfl
  | str s =>
    cases written
    have spelled : Json.plainText s.toList ++ rest = '"' :: (s.toList.flatMap Json.plainChar ++ '"' :: rest) := by
      simp [Json.plainText]
    rw [spelled, Json.readValue, Json.readText_plainText]
    simp [Except.map, unnumbered]

/-- Two literals at the start of one text show the same value. -/
theorem unnumbered_unique {type type' : VariableType} {v v' : Value} {w w' rest rest' : List Char}
    (h : v.IsShown type) (h' : v'.IsShown type') (written : literal type v = .ok w)
    (written' : literal type' v' = .ok w') (closes : Json.Closes rest) (closes' : Json.Closes rest')
    (e : w ++ rest = w' ++ rest') : unnumbered v = unnumbered v' ∧ rest = rest' := by
  have read := readValue_literal h written closes
  rw [e, readValue_literal h' written' closes'] at read
  obtain ⟨value, behind⟩ := Prod.mk.inj (Except.ok.inj read)
  exact ⟨value.symm, behind.symm⟩

/-- Two literals at the start of one text are the same. -/
theorem literal_unique {type type' : VariableType} {v v' : Value} {w w' rest rest' : List Char} (h : v.IsOf type)
    (h' : v'.IsOf type') (written : literal type v = .ok w) (written' : literal type' v' = .ok w')
    (closes : Json.Closes rest) (closes' : Json.Closes rest') (e : w ++ rest = w' ++ rest') :
    (type = type' ∧ v.same v' = true) ∧ rest = rest' := by
  obtain ⟨value, behind⟩ := unnumbered_unique h.isShown h'.isShown written written' closes closes' e
  exact ⟨same_of_unnumbered_eq h h' value, behind⟩

theorem closes_dots (s : List Char) : Json.Closes ('.' :: '.' :: s) := ⟨Double.Stops.cons rfl, rfl, rfl⟩

theorem closes_colon (s : List Char) : Json.Closes (':' :: s) := ⟨Double.Stops.cons rfl, rfl, rfl⟩

theorem closes_semicolon (s : List Char) : Json.Closes (';' :: s) := ⟨Double.Stops.cons rfl, rfl, rfl⟩

theorem newline_of_printable {w : List Char} (h : ∀ c ∈ w, Json.IsPrintable c) : '\n' ∉ w := fun hc =>
  absurd (h _ hc) (by decide)

theorem newline_plainText (s : List Char) : '\n' ∉ Json.plainText s := fun hc =>
  absurd (printed_plainText s _ hc) (by decide)

/-- No newline stands in a literal. -/
theorem newline_literal {type : VariableType} {v : Value} {w : List Char} (h : v.IsOf type)
    (written : literal type v = .ok w) : '\n' ∉ w := by
  cases h with
  | int fits =>
    rw [literal_int (.inl rfl), Value.Integer.text_eq fits] at written
    cases written
    exact newline_of_printable (Json.Reads.int fits).printable
  | float number negative code =>
    cases written
    exact newline_of_printable (Json.Reads.float number (.finite negative code)).printable
  | bool b => cases written; cases b <;> decide
  | str s => cases written; exact newline_plainText _

/-! ## Names -/

theorem not_mem_of_isIdentifier {name : String} (h : isIdentifier name = true) {c : Char}
    (hc : isIdentifierStart c = false) (digit : Text.isDigit c = false) : c ∉ name.toList := by
  unfold isIdentifier at h
  intro hin
  split at h
  · next e => rw [e] at hin; cases hin
  · next d s e =>
    rw [e] at hin
    simp only [Bool.and_eq_true, List.all_eq_true, Bool.or_eq_true] at h
    rcases List.mem_cons.1 hin with rfl | hin
    · rw [hc] at h
      cases h.1
    · have := h.2 c hin
      rw [hc, digit] at this
      simp at this

/-! ## Lines -/

theorem spelling_injective {type type' : VariableType} (h : type.spelling = type'.spelling) : type = type' := by
  revert h
  cases type <;> cases type' <;> decide

/-- The line of a parameter tells all that is shown of it. -/
theorem sameParameter_of_line {v w : Variable} {l : List Char} (hv : v.value.IsOf v.type) (hw : w.value.IsOf w.type)
    (nameV : isIdentifier v.name = true) (nameW : isIdentifier w.name = true) (lineV : parameterLine v = .ok l)
    (lineW : parameterLine w = .ok l) : v.SameParameter w := by
  have colon (type : VariableType) : ':' ∉ type.spelling.toList := by cases type <;> decide
  have blank {name : String} (h : isIdentifier name = true) : ' ' ∉ name.toList :=
    not_mem_of_isIdentifier h (by decide) (by decide)
  obtain ⟨x, writtenV, rfl⟩ := parameterLine_eq_ok lineV
  obtain ⟨y, writtenW, e⟩ := parameterLine_eq_ok lineW
  obtain ⟨types, e⟩ := append_cons_unique (colon _) (colon _) e
  obtain ⟨names, e⟩ := append_cons_unique (blank nameV) (blank nameW) (List.cons.inj e).2
  have values : x ++ [';'] = y ++ [';'] := (List.cons.inj (List.cons.inj e).2).2
  obtain ⟨⟨-, same⟩, -⟩ :=
    literal_unique hv hw writtenV writtenW (closes_semicolon []) (closes_semicolon []) values
  exact ⟨spelling_injective (String.toList_inj.1 types), String.toList_inj.1 names, same⟩

/-- The line of a decision variable tells all that is shown of it. -/
theorem sameDecision_of_line {v w : Variable} {l : List Char} (kindV : v.kind = .decision) (kindW : w.kind = .decision)
    (hv : v.IsTyped) (hw : w.IsTyped) (lineV : decisionLine v = .ok l) (lineW : decisionLine w = .ok l) :
    v.SameDecision w := by
  obtain ⟨lo, hi, roleV⟩ := exists_bounds kindV
  obtain ⟨lo', hi', roleW⟩ := exists_bounds kindW
  simp only [Variable.IsTyped, roleV, roleW] at hv hw
  obtain ⟨x, x', writtenLo, writtenHi, rfl⟩ := decisionLine_eq_ok roleV lineV
  obtain ⟨y, y', writtenLo', writtenHi', e⟩ := decisionLine_eq_ok roleW lineW
  obtain ⟨⟨types, sameLo⟩, e⟩ := literal_unique hv.1 hw.1 writtenLo writtenLo' (closes_dots _) (closes_dots _)
    (List.append_cancel_left e)
  obtain ⟨⟨-, sameHi⟩, e⟩ := literal_unique hv.2 hw.2 writtenHi writtenHi' (closes_colon _) (closes_colon _)
    (List.cons.inj (List.cons.inj e).2).2
  have names := List.append_cancel_right (List.cons.inj (List.cons.inj e).2).2
  exact ⟨types, String.toList_inj.1 names, lo, hi, lo', hi', roleV, roleW, sameLo, sameHi⟩

/-- A constraint by the names of its variables. -/
def named (s : Store) (c : Constraint) : Operator × String × String := (c.operator, s.name c.left, s.name c.right)

/-- The line of a constraint tells the constraint. -/
theorem named_of_line {s s' : Store} {c c' : Constraint} (left : ' ' ∉ (s.name c.left).toList)
    (left' : ' ' ∉ (s'.name c'.left).toList) (e : constraintLine s c = constraintLine s' c') :
    named s c = named s' c' := by
  have operator (o : Operator) : ' ' ∉ o.spelling.toList := by cases o <;> simp [Operator.spelling]
  have spelled {o o' : Operator} (h : o.spelling = o'.spelling) : o = o' := by
    cases o <;> cases o' <;> simp [Operator.spelling] at h ⊢
  rw [constraintLine_eq, constraintLine_eq] at e
  obtain ⟨lefts, e⟩ := append_cons_unique left left' (List.append_cancel_left e)
  obtain ⟨operators, e⟩ := append_cons_unique (operator _) (operator _) e
  have rights := String.toList_inj.1 (List.append_cancel_right e)
  rw [named, named, spelled (String.toList_inj.1 operators), String.toList_inj.1 lefts, rights]

/-- The spelling of an objective is told from what stands behind it. -/
theorem objective_unique {o o' : Objective} {x x' : List Char}
    (h : o.spelling.toList ++ x = o'.spelling.toList ++ x') : o = o' ∧ x = x' := by
  cases o <;> cases o' <;> simp [Objective.spelling] at h ⊢ <;> exact h

/-- The solve item tells the objective. -/
theorem objective_of_item {s s' : Store} {m m' : Model} (lawful : m.Lawful s) (lawful' : m'.Lawful s')
    (e : solveItem s m = solveItem s' m') :
    m.objective = m'.objective ∧ m.objectiveVariable.map s.name = m'.objectiveVariable.map s'.name := by
  rw [solveItem_eq lawful, solveItem_eq lawful'] at e
  obtain ⟨objectives, e⟩ := objective_unique (List.append_cancel_left e)
  refine ⟨objectives, ?_⟩
  cases h : m.objectiveVariable <;> cases h' : m'.objectiveVariable <;> rw [h, h'] at e
  · rfl
  · cases e
  · cases e
  · exact congrArg some (String.toList_inj.1 (List.append_cancel_right (List.cons.inj e).2))

/-! ## Models -/

/-- What is of its type has a literal. -/
theorem isShort_of_isOf {type : VariableType} {v : Value} (h : v.IsOf type) : v.isShort = true := by
  cases h with
  | int fits => exact fits
  | _ => rfl

/-- What is of its type has a literal without newlines. -/
theorem isInline_of_isTyped {s : Store} {m : Model} (typed : m.IsTyped s) : m.IsInline s := by
  intro r hr
  obtain ⟨name, own⟩ := typed r hr
  have shown : ∀ x ∈ (s.get r).shownValues, x.IsOf (s.get r).type := by
    unfold Variable.IsTyped at own
    unfold Variable.shownValues
    cases role : (s.get r).role with
    | parameter domain =>
      rw [role] at own
      simpa using own
    | decision lo hi =>
      rw [role] at own
      simpa using own
  refine ⟨not_mem_of_isIdentifier name (by decide) (by decide), ?_⟩
  intro x hx
  obtain ⟨w, written⟩ := literal_isOk (.inr (isShort_of_isOf (shown x hx)))
  exact ⟨w, written, newline_literal (shown x hx) written⟩

/-- Two rows with the same lines correspond to each other. -/
theorem forall₂_of_lines {α β γ : Type} {P : α → γ → Prop} {Q : β → γ → Prop} {R : α → β → Prop} {as : List α}
    {bs : List β} {ls : List γ} (ha : List.Forall₂ P as ls) (hb : List.Forall₂ Q bs ls)
    (h : ∀ a ∈ as, ∀ b ∈ bs, ∀ l, P a l → Q b l → R a b) : List.Forall₂ R as bs := by
  induction ha generalizing bs with
  | nil => cases hb; exact .nil
  | @cons a l as ls first _ ih =>
    cases hb with
    | @cons b _ bs _ first' others' =>
      refine .cons (h a List.mem_cons_self b List.mem_cons_self l first first') (ih others' ?_)
      exact fun a ha b hb => h a (List.mem_cons_of_mem _ ha) b (List.mem_cons_of_mem _ hb)

theorem isOf_of_parameter {v : Variable} (kind : v.kind = .parameter) (typed : v.IsTyped) : v.value.IsOf v.type := by
  unfold Variable.kind at kind
  unfold Variable.IsTyped at typed
  split at typed
  · exact typed
  · next role => rw [role] at kind; cases kind

/-- Of two models whose names are identifiers and whose values and bounds are of the declared types, the program
tells all but the values of decision variables and the domains of parameters, which it does not show. -/
theorem source_determines {s s' : Store} {m m' : Model} (constructed : Model.Constructed s m)
    (constructed' : Model.Constructed s' m') (typed : m.IsTyped s) (typed' : m'.IsTyped s')
    (same : source s m = source s' m') :
    List.Forall₂ (fun r r' => (s.get r).SameParameter (s'.get r')) m.parameter m'.parameter ∧
    List.Forall₂ (fun r r' => (s.get r).SameDecision (s'.get r')) m.decision m'.decision ∧
    m.constraints.map (named s) = m'.constraints.map (named s') ∧
    m.objective = m'.objective ∧ m.objectiveVariable.map s.name = m'.objectiveVariable.map s'.name := by
  have lawful := constructed.lawful
  have lawful' := constructed'.lawful
  obtain ⟨ps, ds, hp, hd, program, written⟩ := source_of_isInline lawful (isInline_of_isTyped typed)
  obtain ⟨ps', ds', hp', hd', program', written'⟩ := source_of_isInline lawful' (isInline_of_isTyped typed')
  have texts := Except.ok.inj (written.symm.trans (same.trans written'))
  obtain ⟨rfl, rfl, constraints, item⟩ := program.unique program' texts
  refine ⟨forall₂_of_lines hp hp' ?_, forall₂_of_lines hd hd' ?_, ?_, objective_of_item lawful lawful' item⟩
  · intro r hr r' hr' l line line'
    obtain ⟨name, own⟩ := typed r (List.mem_append_left _ hr)
    obtain ⟨name', own'⟩ := typed' r' (List.mem_append_left _ hr')
    exact sameParameter_of_line (isOf_of_parameter (lawful.parameter r hr) own)
      (isOf_of_parameter (lawful'.parameter r' hr') own') name name' line line'
  · intro r hr r' hr' l line line'
    have own := (typed r (List.mem_append_right _ hr)).2
    have own' := (typed' r' (List.mem_append_right _ hr')).2
    exact sameDecision_of_line (lawful.decision r hr) (lawful'.decision r' hr') own own' line line'
  · have blank {s : Store} {m : Model} (lawful : m.Lawful s) (typed : m.IsTyped s) (c : Constraint)
        (hc : c ∈ m.constraints) : ' ' ∉ (s.name c.left).toList :=
      not_mem_of_isIdentifier (typed c.left (lawful.operands c hc _ (by simp [Constraint.operands]))).1
        (by decide) (by decide)
    have lined (s : Store) (cs : List Constraint) :
        List.Forall₂ (fun c l => constraintLine s c = l) cs (cs.map (constraintLine s)) :=
      List.forall₂_map_right_iff.2 (List.forall₂_same.2 fun _ _ => rfl)
    have rows : List.Forall₂ (fun c c' => named s c = named s' c') m.constraints m'.constraints := by
      refine forall₂_of_lines (lined s _) (constraints ▸ lined s' _) ?_
      rintro c hc c' hc' l rfl line'
      exact named_of_line (blank lawful typed c hc) (blank lawful' typed' c' hc') line'.symm
    have mapped : List.Forall₂ (· = ·) (m.constraints.map (named s)) (m'.constraints.map (named s')) :=
      List.forall₂_map_left_iff.2 (List.forall₂_map_right_iff.2 rows)
    rwa [List.forall₂_eq_eq_eq] at mapped

/-- The small model with another solution has the same program. -/
theorem source_determines_small :
    List.Forall₂ (fun r r' => (Model.smallStore.get r).SameDecision ((Model.smallStore.setValue 1 (.int 2)).get r'))
      Model.small.decision Model.small.decision := by
  have solved : Model.smallStore.Step (Model.smallStore.setValue 1 (.int 2)) := .solve _ 1 (.int 2) (by decide +kernel)
  have constructed := Model.constructed_small
  have int {n : Int} (h : Integer.fits n = true) : (Value.int n).IsOf .int := .int h
  have typed (s : Store) (h : s = Model.smallStore ∨ s = Model.smallStore.setValue 1 (.int 2)) :
      Model.small.IsTyped s := by
    intro r hr
    obtain rfl | rfl | rfl : r = 0 ∨ r = 1 ∨ r = 2 := by simpa [Model.members, Model.small] using hr
    all_goals rcases h with rfl | rfl
    all_goals refine ⟨by decide +kernel, ?_⟩
    · exact int (n := 7) (by decide +kernel)
    · exact int (n := 7) (by decide +kernel)
    · exact ⟨int (n := 0) (by decide +kernel), int (n := 5) (by decide +kernel)⟩
    · exact ⟨int (n := 0) (by decide +kernel), int (n := 5) (by decide +kernel)⟩
    · exact ⟨int (n := 1) (by decide +kernel), int (n := 4) (by decide +kernel)⟩
    · exact ⟨int (n := 1) (by decide +kernel), int (n := 4) (by decide +kernel)⟩
  have same : source Model.smallStore Model.small = source (Model.smallStore.setValue 1 (.int 2)) Model.small := by
    rw [Model.source_eq constructed.lawful, Model.source_eq (constructed.later solved).lawful,
      constructed.blueprint_eq (.tail .refl solved)]
  exact (source_determines constructed (constructed.later solved) (typed _ (Or.inl rfl)) (typed _ (Or.inr rfl))
    same).2.1

end Program

end ZincModel
