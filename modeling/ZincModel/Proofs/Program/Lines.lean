import ZincModel.Proofs.Program.Rendering

/-!
# The lines of a program

A program is cut into lines at its newlines. If no newline stands in a name or in a literal (`Model.IsInline`), the
lines are those of the parameters, of the decision variables and of the constraints, and the solve item
(`source_of_isInline`), and they are found again in the text (`splitOn_lines`). The start of a line tells the part of
the program that it is in (`IsProgram.unique`).
-/

namespace ZincModel

/-- What a program shows of the variable: the value of a parameter, or the bounds of a decision variable. -/
def Variable.shownValues (v : Variable) : List Value :=
  match v.role with
  | .parameter _ => [v.value]
  | .decision lo hi => [lo, hi]

/-- The value has a literal, and there is no newline in it. -/
def Value.IsInline (type : VariableType) (x : Value) : Prop := ∃ w, Program.literal type x = .ok w ∧ '\n' ∉ w

instance (type : VariableType) (x : Value) : Decidable (x.IsInline type) :=
  match h : Program.literal type x with
  | .ok w => decidable_of_iff ('\n' ∉ w) (by simp [Value.IsInline, h])
  | .error _ => .isFalse (by simp [Value.IsInline, h])

/-- Name and literals of the variable have no newlines. -/
structure Variable.IsInline (v : Variable) : Prop where
  name : '\n' ∉ v.name.toList
  literals : ∀ x ∈ v.shownValues, x.IsInline v.type

instance (v : Variable) : Decidable v.IsInline :=
  decidable_of_iff ('\n' ∉ v.name.toList ∧ ∀ x ∈ v.shownValues, x.IsInline v.type)
    ⟨fun h => ⟨h.1, h.2⟩, fun h => ⟨h.name, h.literals⟩⟩

/-- The variables of the model have names and literals without newlines. -/
def Model.IsInline (s : Store) (m : Model) : Prop := ∀ r ∈ m.members, (s.get r).IsInline

instance (s : Store) (m : Model) : Decidable (m.IsInline s) :=
  inferInstanceAs (Decidable (∀ r ∈ m.members, (s.get r).IsInline))

theorem Variable.Later.shownValues {v w : Variable} (h : v.Later w) : w.shownValues = v.shownValues := by
  obtain ⟨name, type, role, value⟩ := v
  obtain ⟨name', type', role', value'⟩ := w
  obtain rfl : role' = role := h.role
  cases role' with
  | parameter domain =>
    obtain rfl : value' = value := h.value rfl
    rfl
  | decision lo hi => rfl

theorem Variable.Later.isInline {v w : Variable} (h : v.Later w) (inline : v.IsInline) : w.IsInline where
  name := by
    rw [h.name]
    exact inline.name
  literals := by
    rw [h.shownValues, h.type]
    exact inline.literals

/-- Names and literals of a model stay as they are. -/
theorem Model.IsInline.leads {s s' : Store} {m : Model} (inline : m.IsInline s) (constructed : m.Constructed s)
    (run : s.Leads s') : m.IsInline s' := fun r hr =>
  (run.later (constructed.declared hr)).isInline (inline r hr)

namespace Program

/-! ## What the lines consist of -/

theorem parameterLine_eq_ok {v : Variable} {l : List Char} (h : parameterLine v = .ok l) :
    ∃ w, literal v.type v.value = .ok w ∧
      l = v.type.spelling.toList ++ ':' :: ' ' :: (v.name.toList ++ ' ' :: '=' :: ' ' :: (w ++ [';'])) := by
  obtain ⟨w, written, e⟩ := Except.bind_eq_ok.1 h
  refine ⟨w, written, ?_⟩
  cases e
  simp

theorem exists_bounds {v : Variable} (kind : v.kind = .decision) : ∃ lo hi, v.role = .decision lo hi := by
  unfold Variable.kind at kind
  split at kind
  · cases kind
  · next lo hi role => exact ⟨lo, hi, role⟩

theorem decisionLine_eq_ok {v : Variable} {lo hi : Value} {l : List Char} (role : v.role = .decision lo hi)
    (h : decisionLine v = .ok l) :
    ∃ w w', literal v.type lo = .ok w ∧ literal v.type hi = .ok w' ∧
      l = "var ".toList ++ (w ++ '.' :: '.' :: (w' ++ ':' :: ' ' :: (v.name.toList ++ [';']))) := by
  obtain ⟨name, type, _, value⟩ := v
  cases role
  rw [decisionLine_eq] at h
  obtain ⟨w, written, h⟩ := Except.bind_eq_ok.1 h
  obtain ⟨w', written', e⟩ := Except.bind_eq_ok.1 h
  refine ⟨w, w', written, written', ?_⟩
  cases e
  simp

theorem constraintLine_eq (s : Store) (c : Constraint) :
    constraintLine s c = "constraint ".toList ++ ((s.name c.left).toList ++
      ' ' :: (c.operator.spelling.toList ++ ' ' :: ((s.name c.right).toList ++ [';']))) := by
  unfold constraintLine
  generalize s.name c.left = left, s.name c.right = right
  simp

/-- The objective and its variable, as they stand in the solve item. -/
theorem solveItem_eq {s : Store} {m : Model} (lawful : m.Lawful s) :
    solveItem s m = "solve ".toList ++ (m.objective.spelling.toList ++
      match m.objectiveVariable with
      | none => [';']
      | some r => ' ' :: ((s.name r).toList ++ [';'])) := by
  have goal := lawful.objective
  unfold solveItem
  cases h : m.objectiveVariable with
  | none => rw [goal.1 h]; simp [Objective.spelling]
  | some r =>
    dsimp only
    generalize s.name r = name
    simp

/-! ## Lines in a text -/

/-- A text is cut uniquely where a character stands for the first time. -/
theorem append_cons_unique {d : Char} {w w' x x' : List Char} (hw : d ∉ w) (hw' : d ∉ w')
    (e : w ++ d :: x = w' ++ d :: x') : w = w' ∧ x = x' := by
  induction w generalizing w' with
  | nil =>
    cases w' with
    | nil => exact ⟨rfl, (List.cons.inj e).2⟩
    | cons c w' => exact absurd ((List.cons.inj e).1 ▸ List.mem_cons_self) hw'
  | cons c w ih =>
    cases w' with
    | nil => exact absurd ((List.cons.inj e).1 ▸ List.mem_cons_self) hw
    | cons c' w' =>
      obtain ⟨rfl, behind⟩ := List.cons.inj e
      obtain ⟨rfl, rfl⟩ :=
        ih (fun h => hw (List.mem_cons_of_mem _ h)) (fun h => hw' (List.mem_cons_of_mem _ h)) behind
      exact ⟨rfl, rfl⟩

/-- A text that is cut at its newlines falls into its lines, with nothing behind the last one. -/
theorem splitOn_lines {ls : List (List Char)} (h : ∀ l ∈ ls, '\n' ∉ l) :
    (ls.flatMap line).splitOn '\n' = ls ++ [[]] := by
  induction ls with
  | nil => exact List.splitOn_nil _
  | cons l ls ih =>
    obtain ⟨first, others⟩ := List.forall_mem_cons.1 h
    calc ((l :: ls).flatMap line).splitOn '\n'
        = (l ++ '\n' :: ls.flatMap line).splitOn '\n' := by simp [line]
      _ = l :: (ls.flatMap line).splitOn '\n' := List.splitOn_append_cons_self_of_not_mem first _
      _ = l :: ls ++ [[]] := by rw [ih others, List.cons_append]

/-- Lines without newlines are found again. -/
theorem lines_unique {ls ls' : List (List Char)} (h : ∀ l ∈ ls, '\n' ∉ l) (h' : ∀ l ∈ ls', '\n' ∉ l)
    (e : ls.flatMap line = ls'.flatMap line) : ls = ls' := by
  have cut : ls ++ [[]] = ls' ++ [[]] := by
    rw [← splitOn_lines h, ← splitOn_lines h', e]
  exact List.append_cancel_right cut

/-! ## Parts of programs -/

/-- The parts of a program. -/
inductive Part where
  | parameters
  | decisions
  | constraints
  | item
  deriving DecidableEq

/-- The part that a line with this start is in. -/
def partOf : List Char → Part
  | 'v' :: _ => .decisions
  | 'c' :: _ => .constraints
  | 's' :: 'o' :: _ => .item
  | _ => .parameters

theorem partOf_parameter {v : Variable} {l : List Char} (h : parameterLine v = .ok l) : partOf l = .parameters := by
  obtain ⟨w, -, rfl⟩ := parameterLine_eq_ok h
  cases v.type <;> rfl

theorem partOf_decision {v : Variable} {l : List Char} (kind : v.kind = .decision) (h : decisionLine v = .ok l) :
    partOf l = .decisions := by
  obtain ⟨lo, hi, role⟩ := exists_bounds kind
  obtain ⟨w, w', -, -, rfl⟩ := decisionLine_eq_ok role h
  rfl

theorem partOf_constraint (s : Store) (c : Constraint) : partOf (constraintLine s c) = .constraints := rfl

theorem partOf_item (s : Store) (m : Model) : partOf (solveItem s m) = .item := by
  unfold solveItem
  split
  · rfl
  · rfl

/-- A line as it stands in a part of a program. -/
structure IsLine (part : Part) (l : List Char) : Prop where
  part : partOf l = part
  newline : '\n' ∉ l

section Inline

variable {s : Store} {m : Model} {v : Variable} {l : List Char}

theorem shownValues_parameter (kind : v.kind = .parameter) : v.shownValues = [v.value] := by
  obtain ⟨name, type, domain | ⟨lo, hi⟩, value⟩ := v
  · rfl
  · cases kind

theorem shownValues_decision {lo hi : Value} (role : v.role = .decision lo hi) : v.shownValues = [lo, hi] := by
  simp [Variable.shownValues, role]

theorem parameterLine_of_isInline (kind : v.kind = .parameter) (inline : v.IsInline) :
    ∃ l, parameterLine v = .ok l := by
  obtain ⟨w, written, -⟩ := inline.literals v.value (by simp [shownValues_parameter kind])
  exact ⟨_, by rw [parameterLine, written]; rfl⟩

theorem decisionLine_of_isInline (kind : v.kind = .decision) (inline : v.IsInline) : ∃ l, decisionLine v = .ok l := by
  obtain ⟨name, type, domain | ⟨lo, hi⟩, value⟩ := v
  · cases kind
  · obtain ⟨w, written, -⟩ := inline.literals lo (by simp [Variable.shownValues])
    obtain ⟨w', written', -⟩ := inline.literals hi (by simp [Variable.shownValues])
    exact ⟨_, by rw [decisionLine_eq, written, written']; rfl⟩

theorem newline_shown (inline : v.IsInline) {x : Value} (shown : x ∈ v.shownValues)
    {w : List Char} (written : literal v.type x = .ok w) : '\n' ∉ w := by
  obtain ⟨w', written', newline⟩ := inline.literals x shown
  rw [written] at written'
  cases written'
  exact newline

theorem isLine_parameter (kind : v.kind = .parameter) (inline : v.IsInline) (h : parameterLine v = .ok l) :
    IsLine .parameters l := by
  obtain ⟨w, written, rfl⟩ := parameterLine_eq_ok h
  have spelling : '\n' ∉ v.type.spelling.toList := by cases v.type <;> decide
  have value := newline_shown inline (by simp [shownValues_parameter kind]) written
  refine ⟨partOf_parameter h, ?_⟩
  simp [spelling, inline.name, value]

theorem isLine_decision (kind : v.kind = .decision) (inline : v.IsInline) (h : decisionLine v = .ok l) :
    IsLine .decisions l := by
  obtain ⟨lo, hi, role⟩ := exists_bounds kind
  obtain ⟨w, w', written, written', rfl⟩ := decisionLine_eq_ok role h
  have low := newline_shown inline (by simp [shownValues_decision role]) written
  have high := newline_shown inline (by simp [shownValues_decision role]) written'
  refine ⟨partOf_decision kind h, ?_⟩
  simp [inline.name, low, high]

theorem isLine_constraint {c : Constraint} (left : '\n' ∉ (s.name c.left).toList)
    (right : '\n' ∉ (s.name c.right).toList) : IsLine .constraints (constraintLine s c) := by
  have spelling : '\n' ∉ c.operator.spelling.toList := by cases c.operator <;> simp [Operator.spelling]
  refine ⟨partOf_constraint s c, ?_⟩
  rw [constraintLine_eq]
  generalize s.name c.left = first, s.name c.right = second at left right ⊢
  simp [spelling, left, right]

theorem isLine_item (h : ∀ r, m.objectiveVariable = some r → '\n' ∉ (s.name r).toList) :
    IsLine .item (solveItem s m) := by
  have spelling : '\n' ∉ m.objective.spelling.toList := by cases m.objective <;> simp [Objective.spelling]
  refine ⟨partOf_item s m, ?_⟩
  unfold solveItem
  split
  · simp
  · next r e =>
    have name := h r e
    generalize s.name r = goal at name ⊢
    simp [spelling, name]

end Inline

/-- Lines of the four parts, one part after the other. -/
structure IsProgram (ps ds cs : List (List Char)) (item : List Char) : Prop where
  parameters : ∀ l ∈ ps, IsLine .parameters l
  decisions : ∀ l ∈ ds, IsLine .decisions l
  constraints : ∀ l ∈ cs, IsLine .constraints l
  item : IsLine .item item

theorem filter_part {ls : List (List Char)} {part : Part} (h : ∀ l ∈ ls, IsLine part l) (wanted : Part) :
    ls.filter (partOf · = wanted) = if part = wanted then ls else [] := by
  split
  · next e => exact List.filter_eq_self.2 fun l hl => by simp [(h l hl).part, e]
  · next ne => exact List.filter_eq_nil_iff.2 fun l hl => by simp [(h l hl).part, ne]

theorem IsProgram.newline {ps ds cs : List (List Char)} {item : List Char} (h : IsProgram ps ds cs item) :
    ∀ l ∈ ps ++ ds ++ cs ++ [item], '\n' ∉ l := by
  simp only [List.mem_append, List.mem_singleton]
  rintro l (((hl | hl) | hl) | rfl)
  · exact (h.parameters l hl).newline
  · exact (h.decisions l hl).newline
  · exact (h.constraints l hl).newline
  · exact h.item.newline

/-- The parts of a program are found again. -/
theorem IsProgram.unique {ps ps' ds ds' cs cs' : List (List Char)} {item item' : List Char}
    (h : IsProgram ps ds cs item) (h' : IsProgram ps' ds' cs' item')
    (e : (ps ++ ds ++ cs ++ [item]).flatMap line = (ps' ++ ds' ++ cs' ++ [item']).flatMap line) :
    ps = ps' ∧ ds = ds' ∧ cs = cs' ∧ item = item' := by
  have lines := lines_unique h.newline h'.newline e
  have filtered {ps ds cs : List (List Char)} {item : List Char} (h : IsProgram ps ds cs item) (part : Part) :
      (ps ++ ds ++ cs ++ [item]).filter (partOf · = part) =
        match part with
        | .parameters => ps
        | .decisions => ds
        | .constraints => cs
        | .item => [item] := by
    simp only [List.filter_append, filter_part h.parameters, filter_part h.decisions, filter_part h.constraints,
      filter_part (List.forall_mem_singleton.2 h.item)]
    cases part <;> simp
  have part (part : Part) := (filtered h part).symm.trans ((congrArg _ lines).trans (filtered h' part))
  exact ⟨part .parameters, part .decisions, part .constraints, (List.cons.inj (part .item)).1⟩

/-! ## Models -/

/-- The lines of a program, part by part. -/
theorem source_eq_ok {s : Store} {m : Model} {text : List Char} (h : source s m = .ok text) :
    ∃ ps ds, List.Forall₂ (fun r l => parameterLine (s.get r) = .ok l) m.parameter ps ∧
      List.Forall₂ (fun r l => decisionLine (s.get r) = .ok l) m.decision ds ∧
      text = (ps ++ ds ++ m.constraints.map (constraintLine s) ++ [solveItem s m]).flatMap line := by
  rw [source, Model.declarations_eq] at h
  obtain ⟨declared, hd, h⟩ := Except.bind_eq_ok.1 h
  obtain ⟨ps, hps, hd⟩ := Except.bind_eq_ok.1 hd
  obtain ⟨ds, hds, hd⟩ := Except.bind_eq_ok.1 hd
  cases hd
  cases h
  refine ⟨ps, ds, Except.forall₂_of_mapM hps, Except.forall₂_of_mapM hds, ?_⟩
  simp only [List.flatMap_append, List.flatMap_cons, List.flatMap_nil, List.append_nil]

theorem exists_of_forall₂ {α β : Type} {R : α → β → Prop} {as : List α} {bs : List β} (h : List.Forall₂ R as bs) :
    ∀ b ∈ bs, ∃ a ∈ as, R a b := by
  induction h with
  | nil => simp
  | @cons a b as bs first _ ih =>
    refine List.forall_mem_cons.2 ⟨⟨a, List.mem_cons_self, first⟩, fun b' hb' => ?_⟩
    obtain ⟨a', ha', related⟩ := ih b' hb'
    exact ⟨a', List.mem_cons_of_mem _ ha', related⟩

/-- The lines of a model that keeps the rules and has no newlines make up a program. -/
theorem isProgram_of_lines {s : Store} {m : Model} {ps ds : List (List Char)} (lawful : m.Lawful s)
    (inline : m.IsInline s) (hp : List.Forall₂ (fun r l => parameterLine (s.get r) = .ok l) m.parameter ps)
    (hd : List.Forall₂ (fun r l => decisionLine (s.get r) = .ok l) m.decision ds) :
    IsProgram ps ds (m.constraints.map (constraintLine s)) (solveItem s m) where
  parameters l hl := by
    obtain ⟨r, hr, written⟩ := exists_of_forall₂ hp l hl
    exact isLine_parameter (lawful.parameter r hr) (inline r (List.mem_append_left _ hr)) written
  decisions l hl := by
    obtain ⟨r, hr, written⟩ := exists_of_forall₂ hd l hl
    exact isLine_decision (lawful.decision r hr) (inline r (List.mem_append_right _ hr)) written
  constraints l hl := by
    obtain ⟨c, hc, rfl⟩ := List.mem_map.1 hl
    have operand (r : Ref) (hr : r ∈ c.operands) := (inline r (lawful.operands c hc r hr)).name
    exact isLine_constraint (operand c.left (by simp [Constraint.operands]))
      (operand c.right (by simp [Constraint.operands]))
  item := isLine_item fun r hr => (inline r (lawful.objectiveMember r hr)).name

/-- A model that keeps the rules and has no newlines has a program, which is made of its lines. -/
theorem source_of_isInline {s : Store} {m : Model} (lawful : m.Lawful s) (inline : m.IsInline s) :
    ∃ ps ds, List.Forall₂ (fun r l => parameterLine (s.get r) = .ok l) m.parameter ps ∧
      List.Forall₂ (fun r l => decisionLine (s.get r) = .ok l) m.decision ds ∧
      IsProgram ps ds (m.constraints.map (constraintLine s)) (solveItem s m) ∧
      source s m = .ok ((ps ++ ds ++ m.constraints.map (constraintLine s) ++ [solveItem s m]).flatMap line) := by
  have written : ∃ text, source s m = .ok text := by
    apply source_of_lines
    · intro r hr
      exact parameterLine_of_isInline (lawful.parameter r hr) (inline r (List.mem_append_left _ hr))
    · intro r hr
      exact decisionLine_of_isInline (lawful.decision r hr) (inline r (List.mem_append_right _ hr))
  obtain ⟨text, written⟩ := written
  obtain ⟨ps, ds, hp, hd, rfl⟩ := source_eq_ok written
  exact ⟨ps, ds, hp, hd, isProgram_of_lines lawful inline hp hd, written⟩

end Program

end ZincModel
