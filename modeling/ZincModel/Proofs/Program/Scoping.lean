import ZincModel.Proofs.Program.Lines
import ZincModel.Proofs.Solver.Sequence

/-!
# Names and their declarations

Constraints and objective refer to variables, and a program has the names of variables. A model has no name twice and
no constraint on a variable that is not its own, and its program declares the variables first; so where a line of the
program has a name, exactly one line declares it, an earlier one, and that is the line of the variable which the
constraint or the objective refers to (`Scoped`). Evaluations do not change that (`evaluateAll_scoped`).
-/

namespace ZincModel.Program

/-! ## Reading names in lines -/

/-- The words of a line, between its blanks. -/
def words (l : List Char) : List (List Char) := l.splitOn ' '

/-- The name that a line declares: the second word of a parameter's line, and the last word, without the semicolon,
of a decision variable's. -/
def declaredName? (l : List Char) : Option (List Char) :=
  match partOf l with
  | .parameters => (words l)[1]?
  | .decisions => (words l).getLast?.map List.dropLast
  | _ => none

/-- The names that a line uses: the second and the fourth word of a constraint's line, and the third word of a solve
item that has one. -/
def usedNames (l : List Char) : List (List Char) :=
  match partOf l, words l with
  | .constraints, [_, left, _, right] => [left, right.dropLast]
  | .item, [_, _, name] => [name.dropLast]
  | _, _ => []

variable {s : Store} {m : Model} {v : Variable} {l : List Char}

theorem words_append {w : List Char} (h : ' ' ∉ w) (rest : List Char) : words (w ++ ' ' :: rest) = w :: words rest :=
  List.splitOn_append_cons_self_of_not_mem h rest

theorem words_eq_singleton {w : List Char} (h : ' ' ∉ w) : words w = [w] := List.splitOn_eq_singleton h

theorem declaredName?_parameter (name : ' ' ∉ v.name.toList) (h : parameterLine v = .ok l) :
    declaredName? l = some v.name.toList := by
  have part := partOf_parameter h
  obtain ⟨w, -, rfl⟩ := parameterLine_eq_ok h
  have first : ' ' ∉ v.type.spelling.toList ++ [':'] := by cases v.type <;> decide
  have cut : v.type.spelling.toList ++ ':' :: ' ' :: (v.name.toList ++ ' ' :: '=' :: ' ' :: (w ++ [';'])) =
      (v.type.spelling.toList ++ [':']) ++ ' ' :: (v.name.toList ++ ' ' :: '=' :: ' ' :: (w ++ [';'])) := by simp
  rw [declaredName?, part]
  dsimp only
  rw [cut, words_append first, words_append name]
  rfl

theorem declaredName?_decision (kind : v.kind = .decision) (name : ' ' ∉ v.name.toList) (h : decisionLine v = .ok l) :
    declaredName? l = some v.name.toList := by
  have part := partOf_decision kind h
  obtain ⟨lo, hi, role⟩ := exists_bounds kind
  obtain ⟨w, w', -, -, rfl⟩ := decisionLine_eq_ok role h
  have last : ' ' ∉ v.name.toList ++ [';'] := by simp [name]
  have cut : "var ".toList ++ (w ++ '.' :: '.' :: (w' ++ ':' :: ' ' :: (v.name.toList ++ [';']))) =
      ("var ".toList ++ (w ++ '.' :: '.' :: (w' ++ [':']))) ++ ' ' :: (v.name.toList ++ [';']) := by simp
  rw [declaredName?, part]
  dsimp only
  rw [cut, words, List.splitOn_append_cons_self, ← words, ← words, words_eq_singleton last]
  simp

theorem usedNames_constraint {c : Constraint} (left : ' ' ∉ (s.name c.left).toList)
    (right : ' ' ∉ (s.name c.right).toList) :
    usedNames (constraintLine s c) = [(s.name c.left).toList, (s.name c.right).toList] := by
  have operator : ' ' ∉ c.operator.spelling.toList := by cases c.operator <;> simp [Operator.spelling]
  have last : ' ' ∉ (s.name c.right).toList ++ [';'] := by simp [right]
  have cut : words (constraintLine s c) =
      ["constraint".toList, (s.name c.left).toList, c.operator.spelling.toList, (s.name c.right).toList ++ [';']] := by
    have start : "constraint ".toList = "constraint".toList ++ [' '] := rfl
    rw [constraintLine_eq, start, List.append_assoc, List.singleton_append, words_append (by decide), words_append left,
      words_append operator, words_eq_singleton last]
  simp [usedNames, partOf_constraint, cut]

theorem usedNames_item (lawful : m.Lawful s) (h : ∀ r, m.objectiveVariable = some r → ' ' ∉ (s.name r).toList) :
    usedNames (solveItem s m) = (m.objectiveVariable.map fun r => (s.name r).toList).toList := by
  have spelling : ' ' ∉ m.objective.spelling.toList := by cases m.objective <;> simp [Objective.spelling]
  have start : "solve ".toList = "solve".toList ++ [' '] := rfl
  cases e : m.objectiveVariable with
  | none =>
    have last : ' ' ∉ m.objective.spelling.toList ++ [';'] := by simp [spelling]
    have cut : words (solveItem s m) = ["solve".toList, m.objective.spelling.toList ++ [';']] := by
      rw [solveItem_eq lawful, e, start, List.append_assoc, List.singleton_append, words_append (by decide),
        words_eq_singleton last]
    simp [usedNames, partOf_item, cut]
  | some r =>
    have last : ' ' ∉ (s.name r).toList ++ [';'] := by simp [h r e]
    have cut : words (solveItem s m) =
        ["solve".toList, m.objective.spelling.toList, (s.name r).toList ++ [';']] := by
      rw [solveItem_eq lawful, e, start, List.append_assoc, List.singleton_append, words_append (by decide),
        words_append spelling, words_eq_singleton last]
    simp [usedNames, partOf_item, cut]

/-! ## Places -/

/-- What stands at a place among the lines of a program. -/
inductive LineAt (s : Store) (m : Model) : Nat → List Char → Prop
  | parameter {i : Nat} {r : Ref} {l : List Char} : m.parameter[i]? = some r → parameterLine (s.get r) = .ok l →
    LineAt s m i l
  | decision {i : Nat} {r : Ref} {l : List Char} : m.decision[i]? = some r → decisionLine (s.get r) = .ok l →
    LineAt s m (m.parameter.length + i) l
  | constraint {k : Nat} {c : Constraint} : m.constraints[k]? = some c →
    LineAt s m (m.members.length + k) (constraintLine s c)
  | item : LineAt s m (m.members.length + m.constraints.length) (solveItem s m)

/-- A constraint, or the objective, refers to the variable, and this is the place of its line in the program. -/
inductive Refers (m : Model) : Nat → Ref → Prop
  | constraint {k : Nat} {c : Constraint} {r : Ref} : m.constraints[k]? = some c → r ∈ c.operands →
    Refers m (m.members.length + k) r
  | objective {r : Ref} : m.objectiveVariable = some r → Refers m (m.members.length + m.constraints.length) r

/-- The lines are those of the model in their order, and every name in the line of a constraint or in the solve item is
that of a variable which has its line before. -/
structure Scoped (s : Store) (m : Model) (ls : List (List Char)) : Prop where
  length : ls.length = m.parameter.length + m.decision.length + m.constraints.length + 1
  lines : ∀ (j : Nat) l, ls[j]? = some l ↔ LineAt s m j l
  /-- What a line refers to has an earlier line, and no other line declares a variable of that name. -/
  scope : ∀ j r, Refers m j r → ∃ i < j, m.members[i]? = some r ∧
    ∀ (i' : Nat) r', m.members[i']? = some r' → s.name r' = s.name r → i' = i
  /-- If names have no blanks, all that can be read in the text. (With blanks in them, lines of two variables may read
  alike.) -/
  read : (∀ r ∈ m.members, ' ' ∉ (s.name r).toList) → ∀ (j : Nat) l, ls[j]? = some l → ∀ name ∈ usedNames l,
    ∃ r, Refers m j r ∧ (s.name r).toList = name ∧ ∃ i < j, m.members[i]? = some r ∧
      ∀ (i' : Nat) l', ls[i']? = some l' → (declaredName? l' = some name ↔ i' = i)

section Places

variable {α β : Type} {i : Nat}

theorem getElem?_append_iff {xs ys : List α} {x : α} :
    (xs ++ ys)[i]? = some x ↔ xs[i]? = some x ∨ ∃ k, i = xs.length + k ∧ ys[k]? = some x := by
  rw [List.getElem?_append]
  split
  · next inside =>
    constructor
    · exact .inl
    · rintro (h | ⟨k, rfl, -⟩)
      · exact h
      · omega
  · next outside =>
    constructor
    · intro h
      exact .inr ⟨i - xs.length, by omega, h⟩
    · rintro (h | ⟨k, rfl, h⟩)
      · exact absurd (List.getElem?_eq_some_iff.1 h).1 outside
      · rwa [Nat.add_sub_cancel_left]

theorem forall₂_getElem? {R : α → β → Prop} {as : List α} {bs : List β} (h : List.Forall₂ R as bs) {a : α}
    (ha : as[i]? = some a) : ∃ b, bs[i]? = some b ∧ R a b := by
  induction h generalizing i with
  | nil => cases ha
  | cons first others ih =>
    cases i with
    | zero =>
      cases ha
      exact ⟨_, rfl, first⟩
    | succ i => exact ih ha

theorem length_members (m : Model) : m.members.length = m.parameter.length + m.decision.length := by
  rw [Model.members, List.length_append]

/-- The lines of a model stand at their places. -/
theorem lineAt_iff {ps ds : List (List Char)}
    (hp : List.Forall₂ (fun r l => parameterLine (s.get r) = .ok l) m.parameter ps)
    (hd : List.Forall₂ (fun r l => decisionLine (s.get r) = .ok l) m.decision ds) {j : Nat} {l : List Char} :
    (ps ++ ds ++ m.constraints.map (constraintLine s) ++ [solveItem s m])[j]? = some l ↔ LineAt s m j l := by
  simp only [getElem?_append_iff, List.length_append, List.length_map, ← hp.length_eq, ← hd.length_eq]
  constructor
  -- by the row that the place falls in
  · rintro (((hl | ⟨i, rfl, hl⟩) | ⟨k, rfl, hl⟩) | ⟨k, rfl, hl⟩)
    · obtain ⟨r, hr, written⟩ := forall₂_getElem? hp.flip hl
      exact .parameter hr written
    · obtain ⟨r, hr, written⟩ := forall₂_getElem? hd.flip hl
      exact .decision hr written
    · obtain ⟨c, hc, rfl⟩ : ∃ c, m.constraints[k]? = some c ∧ constraintLine s c = l := by simpa using hl
      rw [← length_members]
      exact .constraint hc
    · obtain ⟨rfl, rfl⟩ : k = 0 ∧ solveItem s m = l := by
        cases k with
        | zero => simpa using hl
        | succ k => simp at hl
      rw [← length_members]
      exact .item
  · intro h
    cases h with
    | parameter hr written =>
      obtain ⟨l', hl', written'⟩ := forall₂_getElem? hp hr
      cases written.symm.trans written'
      exact .inl (.inl (.inl hl'))
    | decision hr written =>
      obtain ⟨l', hl', written'⟩ := forall₂_getElem? hd hr
      cases written.symm.trans written'
      exact .inl (.inl (.inr ⟨_, rfl, hl'⟩))
    | constraint hc => exact .inl (.inr ⟨_, by rw [length_members], by rw [List.getElem?_map, hc]; rfl⟩)
    | item => exact .inr ⟨0, by rw [length_members, Nat.add_zero], rfl⟩

end Places

/-- No two places have variables of one name. -/
theorem place_unique (lawful : m.Lawful s) {i i' : Nat} {r r' : Ref} (hi : m.members[i]? = some r)
    (hi' : m.members[i']? = some r') (same : s.name r' = s.name r) : i' = i := by
  have bound : i' < (m.members.map s.name).length := by
    rw [List.length_map]
    exact (List.getElem?_eq_some_iff.1 hi').1
  apply (List.getElem?_inj bound lawful.names).1
  rw [List.getElem?_map, List.getElem?_map, hi, hi', Option.map_some, Option.map_some, same]

theorem Refers.mem (lawful : m.Lawful s) {j : Nat} {r : Ref} (h : Refers m j r) :
    r ∈ m.members ∧ m.members.length ≤ j := by
  cases h with
  | constraint stands operand =>
    exact ⟨lawful.operands _ (List.mem_of_getElem? stands) r operand, Nat.le_add_right _ _⟩
  | objective goal => exact ⟨lawful.objectiveMember r goal, Nat.le_add_right _ _⟩

/-- A variable that is referred to has its place before, and alone has its name. -/
theorem Refers.place (lawful : m.Lawful s) {j : Nat} {r : Ref} (h : Refers m j r) :
    ∃ i < j, m.members[i]? = some r ∧
      ∀ (i' : Nat) r', m.members[i']? = some r' → s.name r' = s.name r → i' = i := by
  obtain ⟨member, behind⟩ := h.mem lawful
  obtain ⟨i, hi⟩ := List.mem_iff_getElem?.1 member
  have bound : i < m.members.length := (List.getElem?_eq_some_iff.1 hi).1
  exact ⟨i, Nat.lt_of_lt_of_le bound behind, hi, fun i' r' hi' same => place_unique lawful hi hi' same⟩

/-- A line is read as declaring the name of the variable at its place, if there is one. -/
theorem LineAt.declared_eq (lawful : m.Lawful s) (plain : ∀ r ∈ m.members, ' ' ∉ (s.name r).toList) {j : Nat}
    (h : LineAt s m j l) : declaredName? l = (m.members[j]?).map fun r => (s.name r).toList := by
  cases h with
  | parameter stands written =>
    have first : m.members[j]? = some _ := getElem?_append_iff.2 (.inl stands)
    rw [first]
    exact declaredName?_parameter (plain _ (List.mem_of_getElem? first)) written
  | decision stands written =>
    have second : m.members[_]? = some _ := getElem?_append_iff.2 (.inr ⟨_, rfl, stands⟩)
    rw [second]
    exact declaredName?_decision (lawful.decision _ (List.mem_of_getElem? stands))
      (plain _ (List.mem_of_getElem? second)) written
  | constraint stands =>
    rw [declaredName?, partOf_constraint, List.getElem?_eq_none (Nat.le_add_right _ _)]
    rfl
  | item =>
    rw [declaredName?, partOf_item, List.getElem?_eq_none (Nat.le_add_right _ _)]
    rfl

/-- A line that is read as using a name refers to the variable of that name. -/
theorem LineAt.refers (lawful : m.Lawful s) (plain : ∀ r ∈ m.members, ' ' ∉ (s.name r).toList) {j : Nat}
    (h : LineAt s m j l) {name : List Char} (used : name ∈ usedNames l) :
    ∃ r, Refers m j r ∧ (s.name r).toList = name := by
  cases h with
  | parameter stands written =>
    simp [usedNames, partOf_parameter written] at used
  | decision stands written =>
    simp [usedNames, partOf_decision (lawful.decision _ (List.mem_of_getElem? stands)) written] at used
  | @constraint k c stands =>
    have operand (r : Ref) (hr : r ∈ c.operands) : ' ' ∉ (s.name r).toList :=
      plain r (lawful.operands c (List.mem_of_getElem? stands) r hr)
    have left : c.left ∈ c.operands := by simp [Constraint.operands]
    have right : c.right ∈ c.operands := by simp [Constraint.operands]
    rw [usedNames_constraint (operand _ left) (operand _ right)] at used
    simp only [List.mem_cons, List.not_mem_nil, or_false] at used
    rcases used with rfl | rfl
    · exact ⟨c.left, .constraint stands left, rfl⟩
    · exact ⟨c.right, .constraint stands right, rfl⟩
  | item =>
    rw [usedNames_item lawful fun r goal => plain r (lawful.objectiveMember r goal)] at used
    simp only [Option.mem_toList, Option.map_eq_some_iff] at used
    obtain ⟨r, goal, rfl⟩ := used
    exact ⟨r, .objective goal, rfl⟩

/-- The program of a model that keeps the rules and has no newlines is well scoped. -/
theorem source_scoped (lawful : m.Lawful s) (inline : m.IsInline s) :
    ∃ text ls, source s m = .ok text ∧ text.splitOn '\n' = ls ++ [[]] ∧ Scoped s m ls := by
  obtain ⟨ps, ds, hp, hd, program, written⟩ := source_of_isInline lawful inline
  refine ⟨_, _, written, splitOn_lines program.newline, ?_⟩
  exact {
    length := by
      simp only [List.length_append, List.length_map, List.length_singleton, hp.length_eq, hd.length_eq]
    lines := fun j l => lineAt_iff hp hd
    scope := fun j r refers => refers.place lawful
    read := by
      intro plain j l hl name used
      obtain ⟨r, refers, rfl⟩ := ((lineAt_iff hp hd).1 hl).refers lawful plain used
      obtain ⟨i, before, hi, only⟩ := refers.place lawful
      refine ⟨r, refers, rfl, i, before, hi, ?_⟩
      intro i' l' hl'
      rw [((lineAt_iff hp hd).1 hl').declared_eq lawful plain, Option.map_eq_some_iff]
      constructor
      · rintro ⟨r', hi', same⟩
        exact only i' r' hi' (String.toList_inj.1 same)
      · rintro rfl
        exact ⟨r, hi, rfl⟩ }

/-- Models are evaluated one after the other. The program of a model whose names and literals have no newlines has,
at any time, one line for each parameter, decision variable and constraint, in this order, and one for the solve item;
and all that constraints and objective refer to is declared by an earlier line, and by no other. -/
theorem evaluateAll_scoped {qs : List Solver.Request} (requests : ∀ q ∈ qs, q.model.Constructed s)
    (constructed : m.Constructed s) (inline : m.IsInline s) :
    let s' := (Solver.evaluateAll qs s).2
    ∃ text ls, source s' m = .ok text ∧ text.splitOn '\n' = ls ++ [[]] ∧ Scoped s' m ls := by
  have run := Solver.evaluateAll_leads requests
  exact source_scoped (constructed.leads run).lawful (inline.leads constructed run)

/-- The program of the small model has six lines, also after a solution has been found. The last one has the name of
`y`, which an earlier line declares, and no other. -/
theorem evaluateAll_scoped_small :
    let s' := (Solver.evaluateAll [Solver.smallRequest (.finished 0 "" Solution.smallOutput)] Model.smallStore).2
    ∃ text ls, source s' Model.small = .ok text ∧ text.splitOn '\n' = ls ++ [[]] ∧ ls.length = 6 ∧
      ls[5]? = some "solve maximize y;".toList ∧
      ∃ i < 5, Model.small.members[i]? = some 2 ∧
        ∀ (i' : Nat) r', Model.small.members[i']? = some r' → s'.name r' = s'.name 2 → i' = i := by
  intro s'
  have requests : ∀ q ∈ [Solver.smallRequest (.finished 0 "" Solution.smallOutput)],
      q.model.Constructed Model.smallStore := by
    simp [Solver.smallRequest, Model.constructed_small]
  have inline : Model.small.IsInline Model.smallStore := by decide +kernel
  obtain ⟨text, ls, written, cut, scope⟩ := evaluateAll_scoped requests Model.constructed_small inline
  have last : solveItem s' Model.small = "solve maximize y;".toList := by decide +kernel
  exact ⟨text, ls, written, cut, scope.length, last ▸ (scope.lines 5 _).2 .item, scope.scope 5 2 (.objective rfl)⟩

end ZincModel.Program
