import ZincModel.Proofs.Success

/-!
# How steps end

A sequence of steps ends with a result or with a fault. What is known of each step about both, which faults it has
and what is true of its results, is put together here to what is known of the sequence.
-/

namespace Except

variable {ε ε' α β : Type} {F G : ε → Prop} {P R : α → Prop} {Q : β → Prop}

/-- The step ends with a fault of which `F` is true, or with a result of which `P` is true. -/
inductive Ends (F : ε → Prop) (P : α → Prop) : Except ε α → Prop
  | ok {a : α} : P a → Ends F P (.ok a)
  | error {e : ε} : F e → Ends F P (.error e)

namespace Ends

variable {x : Except ε α}

theorem result {a : α} (h : Ends F P (.ok a)) : P a := by
  cases h with
  | ok h => exact h

theorem fault {e : ε} (h : Ends F P (.error e)) : F e := by
  cases h with
  | error h => exact h

/-- What is known of an end, from what is known of each. -/
theorem of_forall (ok : ∀ a, x = .ok a → P a) (error : ∀ e, x = .error e → F e) : Ends F P x := by
  cases x with
  | ok a => exact .ok (ok a rfl)
  | error e => exact .error (error e rfl)

theorem mono (h : Ends F P x) (fault : ∀ e, F e → G e) (result : ∀ a, P a → R a) : Ends G R x := by
  cases h with
  | ok h => exact .ok (result _ h)
  | error h => exact .error (fault _ h)

/-- More is known of a result from how it came about. -/
theorem strengthen (h : Ends F P x) (more : ∀ a, x = .ok a → R a) : Ends F R x := by
  cases h with
  | ok => exact .ok (more _ rfl)
  | error h => exact .error h

/-- More is known of a fault from how it came about. -/
theorem explain (h : Ends F P x) (why : ∀ e, x = .error e → F e → G e) : Ends G P x := by
  cases h with
  | ok h => exact .ok h
  | error h => exact .error (why _ rfl h)

theorem bind {f : α → Except ε β} (first : Ends F P x) (next : ∀ a, P a → Ends F Q (f a)) : Ends F Q (x >>= f) := by
  cases first with
  | ok h => exact next _ h
  | error h => exact .error h

theorem ite {p : Prop} [Decidable p] {y : Except ε α} (yes : Ends F P x) (no : Ends F P y) :
    Ends F P (if p then x else y) := by
  split
  · exact yes
  · exact no

theorem map {f : α → β} (h : Ends F P x) (result : ∀ a, P a → Q (f a)) : Ends F Q (x.map f) := by
  cases h with
  | ok h => exact .ok (result _ h)
  | error h => exact .error h

theorem mapError {f : ε → ε'} {H : ε' → Prop} (h : Ends F P x) (fault : ∀ e, F e → H (f e)) :
    Ends H P (x.mapError f) := by
  cases h with
  | ok h => exact .ok h
  | error h => exact .error (fault _ h)

theorem forM {f : α → Except ε Unit} {xs : List α} (h : ∀ x ∈ xs, Ends F (fun _ => True) (f x)) :
    Ends F (fun _ => True) (xs.forM f) := by
  induction xs with
  | nil => exact .ok trivial
  | cons x xs ih =>
    obtain ⟨first, others⟩ := List.forall_mem_cons.1 h
    exact first.bind fun _ _ => ih others

theorem mapM {f : α → Except ε β} {xs : List α} (h : ∀ x ∈ xs, Ends F Q (f x)) :
    Ends F (fun ys => ∀ y ∈ ys, Q y) (xs.mapM f) := by
  induction xs with
  | nil => exact .ok (by simp)
  | cons x xs ih =>
    obtain ⟨first, others⟩ := List.forall_mem_cons.1 h
    rw [List.mapM_cons]
    exact first.bind fun y hy => (ih others).bind fun ys hys => .ok (List.forall_mem_cons.2 ⟨hy, hys⟩)

/-- Steps in a row, each of which keeps what is true of the state. -/
theorem foldlM {f : β → α → Except ε β} {xs : List α} {b : β} (start : Q b)
    (step : ∀ b, Q b → ∀ x ∈ xs, Ends F Q (f b x)) : Ends F Q (xs.foldlM f b) := by
  induction xs generalizing b with
  | nil => exact .ok start
  | cons x xs ih =>
    rw [List.foldlM_cons]
    refine (step b start x List.mem_cons_self).bind fun b' here => ih here ?_
    exact fun b hb y hy => step b hb y (List.mem_cons_of_mem _ hy)

end Ends

end Except
