import ZincModel.Value.Basic

/-!
# Induction on values

A value is a scalar, or a container of values. What is true of all scalars, and of a container whenever it is true
of all that the container holds, is true of all values.
-/

namespace ZincModel.Value

/-- The value holds no other values. -/
def isScalar : Value → Bool
  | list .. => false
  | tuple .. => false
  | set .. => false
  | dict .. => false
  | _ => true

@[elab_as_elim]
theorem induction {P : Value → Prop} (scalar : ∀ v : Value, v.isScalar = true → P v)
    (list : ∀ l items, (∀ v ∈ items, P v) → P (list l items))
    (tuple : ∀ l items, (∀ v ∈ items, P v) → P (tuple l items))
    (set : ∀ l items, (∀ v ∈ items, P v) → P (set l items))
    (dict : ∀ l entries, (∀ e ∈ entries, P e.1 ∧ P e.2) → P (dict l entries)) (v : Value) : P v := by
  apply @Value.rec P (fun items => ∀ v ∈ items, P v) (fun entries => ∀ e ∈ entries, P e.1 ∧ P e.2)
    (fun e => P e.1 ∧ P e.2)
  case list => exact list
  case tuple => exact tuple
  case set => exact set
  case dict => exact dict
  case nil => simp
  case nil => simp
  case cons => exact fun v items hv hs => List.forall_mem_cons.2 ⟨hv, hs⟩
  case cons => exact fun e entries he hs => List.forall_mem_cons.2 ⟨he, hs⟩
  case mk => exact fun k v hk hv => ⟨hk, hv⟩
  all_goals intros; exact scalar _ rfl

end ZincModel.Value
