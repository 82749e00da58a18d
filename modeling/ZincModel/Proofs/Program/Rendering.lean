import ZincModel.Proofs.Model.Blueprint
import ZincModel.Proofs.Value.Writable

/-!
# Models that have a program

A program fails to be generated only where an integer with too many digits would stand in it (`source_ends`). A
model that keeps the rules and has no such integer has a program (`source_isOk`).
-/

namespace ZincModel

/-- Every integer in the literals for the variable has no more digits than may be written: those in the value of a
parameter or in the bounds of a decision variable. Literals of truth values hold none. -/
def Variable.IsWritable (v : Variable) : Prop :=
  v.type = .bool ∨
    match v.role with
    | .parameter _ => v.value.isShort = true
    | .decision lo hi => lo.isShort = true ∧ hi.isShort = true

instance (v : Variable) : Decidable v.IsWritable :=
  match v with
  | ⟨_, type, .parameter _, value⟩ => inferInstanceAs (Decidable (type = .bool ∨ value.isShort = true))
  | ⟨_, type, .decision lo hi, _⟩ =>
    inferInstanceAs (Decidable (type = .bool ∨ lo.isShort = true ∧ hi.isShort = true))

/-- Every integer in the program for the model has no more digits than may be written. -/
def Model.IsWritable (s : Store) (m : Model) : Prop := ∀ r ∈ m.members, (s.get r).IsWritable

instance (s : Store) (m : Model) : Decidable (m.IsWritable s) :=
  inferInstanceAs (Decidable (∀ r ∈ m.members, (s.get r).IsWritable))

namespace Program

open Except (Ends)

theorem literal_isOk {type : VariableType} {v : Value} (h : type = .bool ∨ v.isShort = true) :
    ∃ t, literal type v = .ok t := by
  unfold literal
  dsimp only
  split
  · exact ⟨_, rfl⟩
  · exact ⟨_, rfl⟩
  · obtain ⟨t, ht⟩ := Value.text_isOk (h.resolve_left (by simp))
    exact ⟨_, Except.map_eq_ok.2 ⟨t, ht, rfl⟩⟩
  · exact ⟨_, rfl⟩
  · next notBool _ _ _ => exact Value.text_isOk (h.resolve_left notBool)

theorem parameterLine_isOk {v : Variable} (k : v.kind = .parameter) (h : v.IsWritable) :
    ∃ t, parameterLine v = .ok t := by
  rcases v with ⟨name, type, domain | ⟨lo, hi⟩, value⟩
  · obtain ⟨t, ht⟩ := literal_isOk h
    exact ⟨_, by rw [parameterLine, ht]; rfl⟩
  · cases k

/-- The line of a decision variable, by its bounds. -/
theorem decisionLine_eq (name : String) (type : VariableType) (lo hi value : Value) :
    decisionLine ⟨name, type, .decision lo hi, value⟩ = (do
      let lo ← literal type lo
      let hi ← literal type hi
      return "var ".toList ++ lo ++ "..".toList ++ hi ++ ": ".toList ++ name.toList ++ [';']) :=
  rfl

theorem decisionLine_isOk {v : Variable} (k : v.kind = .decision) (h : v.IsWritable) :
    ∃ t, decisionLine v = .ok t := by
  rcases v with ⟨name, type, domain | ⟨lo, hi⟩, value⟩
  · cases k
  · obtain ⟨t, ht⟩ := literal_isOk (h.imp_right And.left)
    obtain ⟨t', ht'⟩ := literal_isOk (h.imp_right And.right)
    exact ⟨_, by rw [decisionLine_eq, ht, ht']; rfl⟩

/-- If every variable has a line, there is a program. -/
theorem source_of_lines {s : Store} {m : Model} (parameter : ∀ r ∈ m.parameter, ∃ l, parameterLine (s.get r) = .ok l)
    (decision : ∀ r ∈ m.decision, ∃ l, decisionLine (s.get r) = .ok l) : ∃ text, source s m = .ok text := by
  obtain ⟨parameters, hp⟩ := Except.mapM_isOk parameter
  obtain ⟨decisions, hd⟩ := Except.mapM_isOk decision
  exact ⟨_, by rw [source, Model.declarations_eq, hp, hd]; rfl⟩

/-- A model that keeps the rules and has no long integers has a program. -/
theorem source_isOk {s : Store} {m : Model} (lawful : m.Lawful s) (h : m.IsWritable s) :
    ∃ text, source s m = .ok text := by
  apply source_of_lines
  · intro r hr
    exact parameterLine_isOk (lawful.parameter r hr) (h r (List.mem_append_left _ hr))
  · intro r hr
    exact decisionLine_isOk (lawful.decision r hr) (h r (List.mem_append_right _ hr))

/-! ## Models without a program -/

theorem literal_unwritten (type : VariableType) (v : Value) :
    Ends Value.Unwritten (fun _ => True) (literal type v) := by
  have text : Ends Value.Unwritten (fun _ => True) v.text := v.text_ends.mono (fun _ h => h.1) fun _ => id
  unfold literal
  dsimp only
  split
  · exact .ok trivial
  · exact .ok trivial
  · exact text.map fun _ _ => trivial
  · exact .ok trivial
  · exact text

theorem parameterLine_unwritten (v : Variable) : Ends Value.Unwritten (fun _ => True) (parameterLine v) :=
  (literal_unwritten _ _).bind fun _ _ => .ok trivial

theorem decisionLine_unwritten {v : Variable} (k : v.kind = .decision) :
    Ends Value.Unwritten (fun _ => True) (decisionLine v) := by
  rcases v with ⟨name, type, domain | ⟨lo, hi⟩, value⟩
  · cases k
  · rw [decisionLine_eq]
    exact (literal_unwritten type lo).bind fun _ _ => (literal_unwritten type hi).bind fun _ _ => .ok trivial

/-- A model that keeps the rules has no program only because of a long integer in it. -/
theorem source_ends {s : Store} {m : Model} (lawful : m.Lawful s) :
    Ends (fun f => f = .content .integerUnwritable ∧ ¬m.IsWritable s) (fun _ => True) (source s m) := by
  have unwritten : Ends Value.Unwritten (fun _ => True) (source s m) := by
    rw [source, Model.declarations_eq]
    refine Ends.bind (P := fun _ => True) ?_ fun _ _ => .ok trivial
    refine (Ends.mapM (Q := fun _ => True) fun r _ => parameterLine_unwritten _).bind fun parameters _ => ?_
    refine (Ends.mapM (Q := fun _ => True) fun r hr => ?_).bind fun decisions _ => .ok trivial
    exact decisionLine_unwritten (lawful.decision r hr)
  refine .of_forall (fun _ _ => trivial) fun f fault => ?_
  rw [fault] at unwritten
  refine ⟨unwritten.fault, fun writable => ?_⟩
  obtain ⟨text, program⟩ := source_isOk lawful writable
  rw [program] at fault
  cases fault

end Program

end ZincModel
