import ZincModel.Proofs.Failure
import ZincModel.Proofs.Value.Induction
import ZincModel.Value.Display

/-!
# Values that have a text

Only an integer with too many digits has no text, so a value is shown (`displayIn_isOk`, `text_isOk`) as long as
there is no such integer in it (`isShort`), and no other fault can come of showing it (`displayed_ends`).
-/

namespace ZincModel.Value

mutual

/-- No integer in the value has more digits than may be written. -/
def isShort : Value → Bool
  | int n => Integer.fits n
  | list _ items => allShort items
  | tuple _ items => allShort items
  | set _ items => allShort items
  | dict _ entries => entriesShort entries
  | _ => true
termination_by structural x => x

def allShort : List Value → Bool
  | [] => true
  | v :: rest => isShort v && allShort rest
termination_by structural x => x

def entriesShort : List (Value × Value) → Bool
  | [] => true
  | (k, v) :: rest => isShort k && isShort v && entriesShort rest
termination_by structural x => x

end

theorem allShort_iff {items : List Value} : allShort items = true ↔ ∀ v ∈ items, isShort v = true := by
  induction items with
  | nil => simp [allShort]
  | cons v items ih => simp [allShort, ih]

theorem entriesShort_iff {entries : List (Value × Value)} :
    entriesShort entries = true ↔ ∀ e ∈ entries, isShort e.1 = true ∧ isShort e.2 = true := by
  induction entries with
  | nil => simp [entriesShort]
  | cons e entries ih => simp [entriesShort, ih, and_assoc]

theorem Integer.text_eq {n : Int} (h : Integer.fits n = true) : Integer.text n = .ok (Integer.numeral n) :=
  if_pos h

/-- Only an integer that may be written has a text. -/
theorem Integer.text_eq_ok {n : Int} {t : List Char} (h : Integer.text n = .ok t) :
    Integer.fits n = true ∧ t = Integer.numeral n := by
  unfold Integer.text at h
  split at h
  · next fits => exact ⟨fits, (Except.ok.inj h).symm⟩
  · cases h

theorem displayAll_eq (path : List Nat) (items : List Value) :
    displayAll path items = items.mapM (displayIn path) := by
  induction items with
  | nil => rfl
  | cons v items ih => rw [List.mapM_cons, ← ih]; rfl

theorem displayEntries_eq (path : List Nat) (entries : List (Value × Value)) :
    displayEntries path entries = entries.mapM fun e => do
      let key ← displayIn path e.1
      let part ← displayIn path e.2
      return key ++ ':' :: ' ' :: part := by
  induction entries with
  | nil => rfl
  | cons e entries ih =>
    rw [List.mapM_cons, ← ih, displayEntries]
    simp only [bind_assoc, pure_bind]

/-- A value without long integers is shown, wherever it stands. -/
theorem displayIn_isOk (v : Value) (h : v.isShort = true) (path : List Nat) : ∃ t, v.displayIn path = .ok t := by
  induction v using Value.induction generalizing path with
  | scalar v hv =>
    cases v with
    | int n => exact ⟨_, Integer.text_eq h⟩
    | _ => first | exact ⟨_, rfl⟩ | cases hv
  | list l items ih =>
    rw [displayIn]
    split
    · exact ⟨_, rfl⟩
    · have each : ∀ v ∈ items, ∃ t, displayIn (enter l path) v = .ok t :=
        fun v hv => ih v hv (allShort_iff.1 h v hv) _
      obtain ⟨parts, all⟩ := Except.mapM_isOk each
      exact ⟨_, by rw [displayAll_eq, all]; rfl⟩
  | tuple l items ih =>
    rw [displayIn]
    split
    · exact ⟨_, rfl⟩
    · have each : ∀ v ∈ items, ∃ t, displayIn (enter l path) v = .ok t :=
        fun v hv => ih v hv (allShort_iff.1 h v hv) _
      obtain ⟨parts, all⟩ := Except.mapM_isOk each
      exact ⟨_, by rw [displayAll_eq, all]; rfl⟩
  | set l items ih =>
    have each : ∀ v ∈ items, ∃ t, displayIn path v = .ok t := fun v hv => ih v hv (allShort_iff.1 h v hv) _
    obtain ⟨parts, all⟩ := Except.mapM_isOk each
    exact ⟨_, by rw [displayIn, displayAll_eq, all]; rfl⟩
  | dict l entries ih =>
    rw [displayIn]
    split
    · exact ⟨_, rfl⟩
    · have each : ∀ e ∈ entries, ∃ t, (do
          let key ← displayIn (enter l path) e.1
          let part ← displayIn (enter l path) e.2
          return key ++ ':' :: ' ' :: part : Except Fault (List Char)) = .ok t := by
        intro e he
        obtain ⟨short, short'⟩ := entriesShort_iff.1 h e he
        obtain ⟨key, hkey⟩ := (ih e he).1 short (enter l path)
        obtain ⟨part, hpart⟩ := (ih e he).2 short' (enter l path)
        exact ⟨_, by rw [hkey, hpart]; rfl⟩
      obtain ⟨parts, all⟩ := Except.mapM_isOk each
      exact ⟨_, by rw [displayEntries_eq, all]; rfl⟩

theorem text_isOk {v : Value} (h : v.isShort = true) : ∃ t, v.text = .ok t := by
  unfold text
  split
  · exact ⟨_, rfl⟩
  · exact ⟨_, rfl⟩
  · exact ⟨_, rfl⟩
  · exact displayIn_isOk v h []

theorem textString_isOk {v : Value} (h : v.isShort = true) : ∃ t, v.textString = .ok t := by
  obtain ⟨t, ht⟩ := text_isOk h
  exact ⟨_, Except.map_eq_ok.2 ⟨t, ht, rfl⟩⟩

/-! ## Values without a text -/

open Except (Ends)

/-- The fault of an integer with too many digits. -/
def Unwritten (f : Fault) : Prop := f = .content .integerUnwritable

theorem displayIn_unwritten (v : Value) (path : List Nat) :
    Ends Unwritten (fun _ => True) (v.displayIn path) := by
  induction v using Value.induction generalizing path with
  | scalar v hv =>
    cases v with
    | int n =>
      rw [displayIn, Integer.text]
      split
      · exact .ok trivial
      · exact .error rfl
    | _ => first | exact .ok trivial | cases hv
  | list l items ih =>
    rw [displayIn]
    split
    · exact .ok trivial
    · rw [displayAll_eq]
      exact (Ends.mapM fun v hv => ih v hv _).bind fun _ _ => .ok trivial
  | tuple l items ih =>
    rw [displayIn]
    split
    · exact .ok trivial
    · rw [displayAll_eq]
      exact (Ends.mapM fun v hv => ih v hv _).bind fun _ _ => .ok trivial
  | set l items ih =>
    rw [displayIn, displayAll_eq]
    exact (Ends.mapM fun v hv => ih v hv _).bind fun _ _ => .ok trivial
  | dict l entries ih =>
    rw [displayIn]
    split
    · exact .ok trivial
    · rw [displayEntries_eq]
      refine (Ends.mapM (Q := fun _ => True) fun e he => ?_).bind fun _ _ => .ok trivial
      exact ((ih e he).1 _).bind fun _ _ => ((ih e he).2 _).bind fun _ _ => .ok trivial

/-- What has a fault only for want of a text of an integer, and none if the value is short, has it because of a long
integer in the value. -/
theorem ends_of_isShort {α : Type} {v : Value} {x : Except Fault α} (ends : Ends Unwritten (fun _ => True) x)
    (isOk : v.isShort = true → ∃ a, x = .ok a) : Ends (fun f => Unwritten f ∧ v.isShort = false) (fun _ => True) x := by
  cases ends with
  | ok => exact .ok trivial
  | error unwritten =>
    refine .error ⟨unwritten, ?_⟩
    by_contra short
    obtain ⟨a, e⟩ := isOk (eq_true_of_ne_false short)
    cases e

/-- Showing a value fails only because of a long integer in it. -/
theorem displayed_ends (v : Value) : Ends (fun f => Unwritten f ∧ v.isShort = false) (fun _ => True) v.displayed := by
  have display : Ends (fun f => Unwritten f ∧ v.isShort = false) (fun _ => True) (v.displayIn []) :=
    ends_of_isShort (displayIn_unwritten v []) fun short => displayIn_isOk v short []
  exact display.map fun _ _ => trivial

/-- The plain text of a value is wanting only because of a long integer in it. -/
theorem text_ends (v : Value) : Ends (fun f => Unwritten f ∧ v.isShort = false) (fun _ => True) v.text := by
  refine ends_of_isShort ?_ text_isOk
  unfold text
  split
  · exact .ok trivial
  · exact .ok trivial
  · exact .ok trivial
  · exact displayIn_unwritten v []

theorem textString_ends (v : Value) :
    Ends (fun f => Unwritten f ∧ v.isShort = false) (fun _ => True) v.textString :=
  (text_ends v).map fun _ _ => trivial

end ZincModel.Value
