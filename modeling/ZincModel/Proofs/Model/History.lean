import Mathlib.Logic.Relation
import ZincModel.Model.Basic
import ZincModel.Proofs.Success

/-!
# What happens to the variables of a model

A store changes in three ways: a variable is declared, or was meant to be; a decision variable is given the
value that a solver has found; numbers for shared values are used up. A declared variable keeps its name, its
type and its role through all of that, and a parameter its value (`Store.Leads.later`). What a declaration checks
is therefore true of a variable at any later time (`Store.Leads.sound`).
-/

namespace ZincModel

/-! ## Looking up after a change -/

namespace Store

@[simp] theorem size_setValue (s : Store) (r : Ref) (v : Value) :
    (s.setValue r v).declared.size = s.declared.size := by
  simp [setValue]

theorem get_eq_default {s : Store} {r : Ref} (h : s.declared.size ≤ r) : s.get r = default := by
  simp [get, Array.getD_eq_getD_getElem?, Array.getElem?_eq_none h]

theorem get_setValue_self {s : Store} {r : Ref} (h : r < s.declared.size) (v : Value) :
    (s.setValue r v).get r = { s.get r with value := v } := by
  simp [get, setValue, Array.getD_eq_getD_getElem?, Array.getElem_modify, h]

theorem get_setValue_ne {s : Store} {r q : Ref} (h : q ≠ r) (v : Value) : (s.setValue r v).get q = s.get q := by
  simp [get, setValue, Array.getD_eq_getD_getElem?, Array.getElem?_modify, Ne.symm h]

theorem declared_declare (s : Store) (d : Declaration) :
    (s.declare d).2.declared = s.declared ∨
      ∃ v n, d.toVariable s.nextName = (.ok v, n) ∧ (s.declare d).2.declared = s.declared.push v := by
  unfold declare
  rcases h : d.toVariable s.nextName with ⟨_ | v, n⟩
  · exact Or.inl rfl
  · exact Or.inr ⟨v, n, rfl, rfl⟩

theorem get_of_declared_eq_push {s s' : Store} {v : Variable} (h : s'.declared = s.declared.push v) (r : Ref) :
    s'.get r = if r = s.declared.size then v else s.get r := by
  simp only [get, Array.getD_eq_getD_getElem?, h, Array.getElem?_push]
  split <;> rfl

/-- The variable that was declared last. -/
theorem get_push (s : Store) (v : Variable) (n : Nat) :
    ({ s with declared := s.declared.push v, nextName := n } : Store).get s.declared.size = v :=
  (get_of_declared_eq_push rfl _).trans (if_pos rfl)

theorem get_of_declared_eq {s s' : Store} (h : s'.declared = s.declared) (r : Ref) : s'.get r = s.get r := by
  simp only [get, h]

/-- A variable of the kind that solvers give values to is a declared one. -/
theorem lt_size_of_decision {s : Store} {r : Ref} (h : (s.get r).kind = .decision) : r < s.declared.size := by
  apply Nat.lt_of_not_le
  intro hr
  rw [get_eq_default hr] at h
  cases h

end Store

/-! ## Steps of a store -/

/-- One thing that happens to a store. -/
inductive Store.Step : Store → Store → Prop
  | declare (s : Store) (d : Declaration) : Step s (s.declare d).2
  | solve (s : Store) (r : Ref) (v : Value) : (s.get r).kind = .decision → Step s (s.setValue r v)
  | number (s : Store) (n : Nat) : Step s { s with nextNumber := n }

/-- The second store comes from the first one, step by step. -/
abbrev Store.Leads : Store → Store → Prop := Relation.ReflTransGen Store.Step

/-- The second variable is the first one at a later time. -/
structure Variable.Later (v w : Variable) : Prop where
  name : w.name = v.name
  type : w.type = v.type
  role : w.role = v.role
  value : v.kind = .parameter → w.value = v.value

namespace Variable.Later

theorem refl (v : Variable) : v.Later v := ⟨rfl, rfl, rfl, fun _ => rfl⟩

theorem kind {v w : Variable} (h : v.Later w) : w.kind = v.kind := by
  simp only [Variable.kind, h.role]

theorem trans {u v w : Variable} (h : u.Later v) (h' : v.Later w) : u.Later w where
  name := h'.name.trans h.name
  type := h'.type.trans h.type
  role := h'.role.trans h.role
  value k := (h'.value (h.kind.trans k)).trans (h.value k)

/-- A value for a decision variable. -/
theorem of_value {v : Variable} (k : v.kind = .decision) (x : Value) : v.Later { v with value := x } where
  name := rfl
  type := rfl
  role := rfl
  value k' := by rw [k] at k'; cases k'

end Variable.Later

namespace Store

theorem Step.size_le {s s' : Store} (h : s.Step s') : s.declared.size ≤ s'.declared.size := by
  cases h with
  | declare d =>
    rcases s.declared_declare d with e | ⟨v, n, -, e⟩
    · exact Nat.le_of_eq (congrArg Array.size e).symm
    · rw [e, Array.size_push]; omega
  | solve r v _ => simp
  | number n => exact Nat.le_refl _

theorem Step.later {s s' : Store} (h : s.Step s') {r : Ref} (hr : r < s.declared.size) :
    (s.get r).Later (s'.get r) := by
  cases h with
  | declare d =>
    rcases s.declared_declare d with e | ⟨v, n, -, e⟩
    · rw [get_of_declared_eq e]; exact .refl _
    · rw [get_of_declared_eq_push e, if_neg (Nat.ne_of_lt hr)]; exact .refl _
  | solve q v k =>
    by_cases e : r = q
    · subst e; rw [get_setValue_self hr]; exact .of_value k v
    · rw [get_setValue_ne e]; exact .refl _
  | number n => exact .refl _

theorem Leads.size_le {s s' : Store} (h : s.Leads s') : s.declared.size ≤ s'.declared.size := by
  induction h with
  | refl => exact Nat.le_refl _
  | tail _ step ih => exact Nat.le_trans ih step.size_le

/-- A declared variable stays what it is. -/
theorem Leads.later {s s' : Store} (h : s.Leads s') {r : Ref} (hr : r < s.declared.size) :
    (s.get r).Later (s'.get r) := by
  induction h with
  | refl => exact .refl _
  | tail run step ih => exact ih.trans (step.later (Nat.lt_of_lt_of_le hr (Leads.size_le run)))

end Store

/-! ## What declarations check -/

/-- The rules for a variable. -/
structure Variable.Sound (v : Variable) : Prop where
  name : v.name ≠ ""
  value : v.kind = .parameter → v.value ≠ .null
  bounds : ∀ lo hi, v.role = .decision lo hi → hi.less lo = .ok false

theorem Variable.Later.sound {v w : Variable} (h : v.Later w) (hv : v.Sound) : w.Sound where
  name := by rw [h.name]; exact hv.name
  value k := by
    have k' := h.kind ▸ k
    rw [h.value k']; exact hv.value k'
  bounds lo hi e := hv.bounds lo hi (h.role ▸ e)

namespace Declaration

theorem checkBounds_ok {name : String} {domain lo hi : Value} (h : checkBounds name domain = .ok (lo, hi)) :
    hi.less lo = .ok false := by
  unfold checkBounds at h
  split at h
  · simp [Except.bind_eq_ok] at h
  · next lo' hi' _ =>
    split at h
    · simp [Except.bind_eq_ok] at h
    · simp [Except.bind_eq_ok] at h
    · next less =>
      cases h
      exact less

theorem checkKind_sound {d : Declaration} {type : VariableType} {kind : Kind} {name : String} {v : Variable}
    (hname : name ≠ "") (h : d.checkKind type kind name = .ok v) : v.Sound := by
  unfold checkKind at h
  cases kind with
  | parameter =>
    cases hv : d.value <;> simp only [hv] at h <;> cases h <;>
      exact ⟨hname, fun _ => by simp, fun _ _ e => by cases e⟩
  | decision =>
    cases hv : d.value with
    | null =>
      simp only [hv] at h
      obtain ⟨⟨lo, hi⟩, hb, h⟩ := Except.bind_eq_ok.1 h
      cases h
      refine ⟨hname, fun k => (by cases k), fun lo' hi' e => ?_⟩
      cases e
      exact checkBounds_ok hb
    | _ => simp [hv] at h

theorem autoName_ne_empty (n : Nat) : autoName n ≠ "" := by
  intro h
  have := congrArg String.length h
  simp [autoName] at this

theorem toVariable_sound {d : Declaration} {n n' : Nat} {v : Variable} (h : d.toVariable n = (.ok v, n')) :
    v.Sound := by
  unfold toVariable at h
  split at h
  · simp at h
  split at h
  · simp at h
  split at h
  · exact checkKind_sound (autoName_ne_empty n) (Prod.mk.inj h).1
  · split at h
    · simp at h
    · next hname => exact checkKind_sound hname (Prod.mk.inj h).1
  · simp [Except.bind_eq_ok] at h

end Declaration

/-- The rules hold for every variable that has been declared so far. -/
theorem Store.Leads.sound {s : Store} (h : Leads {} s) {r : Ref} (hr : r < s.declared.size) : (s.get r).Sound := by
  induction h with
  | refl => exact absurd hr (by simp)
  | tail _ step ih =>
    rename_i s₁ s₂ _
    by_cases old : r < s₁.declared.size
    · exact (step.later old).sound (ih old)
    · cases step with
      | declare d =>
        rcases s₁.declared_declare d with e | ⟨v, n, made, e⟩
        · rw [e] at hr; exact absurd hr old
        · rw [e, Array.size_push] at hr
          rw [get_of_declared_eq_push e, if_pos (Nat.le_antisymm (Nat.le_of_lt_succ hr) (Nat.le_of_not_lt old))]
          exact Declaration.toVariable_sound made
      | solve q v _ => exact absurd (by simpa using hr) old
      | number n => exact absurd hr old

end ZincModel
