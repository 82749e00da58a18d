import ZincModel.Proofs.Json.RoundTrip
import ZincModel.Proofs.Value.Renewed

/-!
# Values survive JSON in their order

Where entries are written in the order that they have, what is read is the value itself, but that nothing in it is
shared (`read_write_unsorted`, `same_unshared`).
-/

namespace ZincModel.Json

open Text Value

mutual

/-- The value with nothing shared in it: each part stands for itself, as a reader makes it. -/
def unshared : Value → Value
  | .float _ .nan => .float (some nanNumber) .nan
  | .float _ x => .ofDouble x
  | .list _ items => .ofList (unsharedAll items)
  | .dict _ entries => .ofEntries (unsharedEntries entries)
  | v => v
termination_by structural x => x

def unsharedAll : List Value → List Value
  | [] => []
  | v :: rest => unshared v :: unsharedAll rest
termination_by structural x => x

def unsharedEntries : List (Value × Value) → List (Value × Value)
  | [] => []
  | (k, v) :: rest => (k, unshared v) :: unsharedEntries rest
termination_by structural x => x

end

theorem unsharedAll_eq (items : List Value) : unsharedAll items = items.map unshared := by
  induction items with
  | nil => rfl
  | cons v items ih => rw [unsharedAll, ih, List.map_cons]

theorem unsharedEntries_eq (entries : List (Value × Value)) :
    unsharedEntries entries = entries.map fun e => (e.1, unshared e.2) := by
  induction entries with
  | nil => rfl
  | cons e entries ih => rw [unsharedEntries, ih, List.map_cons]

/-- What is shared is no part of what a value is. -/
theorem same_unshared (v : Value) : (unshared v).same v = true := by
  induction v using Value.induction with
  | scalar v scalar =>
    cases v with
    | float number x => cases x <;> simp [unshared, same]
    | list => cases scalar
    | dict => cases scalar
    | _ => exact same_refl _
  | list l items ih =>
    rw [unshared, unsharedAll_eq]
    exact sameAll_iff.2 (List.forall₂_map_left_iff.2 (List.forall₂_same.2 ih))
  | tuple l items => exact same_refl _
  | set l items => exact same_refl _
  | dict l entries ih =>
    rw [unshared, unsharedEntries_eq]
    apply sameEntries_iff.2
    rw [List.forall₂_map_left_iff, List.forall₂_same]
    exact fun e he => ⟨same_refl _, (ih e he).2⟩

theorem isObject_unsharedEntries {entries : List (Value × Value)} (h : IsObject entries) :
    IsObject (unsharedEntries entries) := by
  apply h.of_keys_eq
  rw [unsharedEntries_eq, List.map_map]
  rfl

theorem lookup_unsharedEntries (key : String) (entries : List (Value × Value)) :
    lookup key (unsharedEntries entries) = (lookup key entries).map unshared := by
  induction entries with
  | nil => rfl
  | cons e entries ih =>
    obtain ⟨k, v⟩ := e
    rw [unsharedEntries]
    cases k with
    | str k =>
      simp only [lookup]
      split
      · rfl
      · exact ih
    | _ => exact ih

/-- A value that JSON has is written with its entries in their order, and its text is read as the value. -/
theorem write_unsorted_reads {path : List Nat} {v : Value} (h : Plain path v) :
    ∃ w, writeIn false path v = .ok w ∧ Reads w (unshared v) := by
  induction h with
  | null => exact ⟨_, rfl, .null⟩
  | bool b => exact ⟨_, rfl, .bool b⟩
  | int fits => exact ⟨_, Integer.text_eq fits, .int fits⟩
  | float n x =>
    have reads : Reads (number x) (readBack (.float n x)) := .float n x
    refine ⟨_, rfl, ?_⟩
    cases x <;> exact reads
  | str s => exact ⟨_, rfl, .str s⟩
  | list free _ ih =>
    rw [unshared, unsharedAll_eq]
    exact write_list_reads free ih
  | @dict path l entries free object _ ih =>
    obtain ⟨rows, written, values, entry⟩ := writeEntries_reads object ih
    rw [← unsharedEntries_eq] at values
    refine ⟨'{' :: joined (rows.map fun r => r.2.1) ++ ['}'], ?_, ?_⟩
    · have parts : (rows.map fun r => (r.1, (Except.ok r.2.1 : Written))).map (·.2) =
          (rows.map fun r => r.2.1).map Except.ok := by
        rw [List.map_map, List.map_map]
        rfl
      simp only [writeIn, free, Bool.false_eq_true, if_false, written, parts, allWritten_map]
      rfl
    · have object' := isObject_unsharedEntries object
      rw [unshared]
      rw [values] at object' ⊢
      apply Reads.dict _ object'
      rw [List.forall₂_map_left_iff, List.forall₂_map_right_iff, List.forall₂_same]
      exact entry

/-- A value that JSON has survives being written in its order, in printable ASCII, and read. -/
theorem read_write_unsorted {v : Value} (h : Plain [] v) :
    ∃ w, write false v = .ok w ∧ (∀ c ∈ w, IsPrintable c) ∧ read w = .ok (unshared v) := by
  obtain ⟨w, written, reads⟩ := write_unsorted_reads h
  exact ⟨w, written, reads.printable, reads.whole⟩

end ZincModel.Json
