import ZincModel.Json.Writer
import ZincModel.Proofs.Value.Object

/-!
# Entries by name

Entries with text keys have a sorted arrangement, which depends on the keys alone (`byName_map`): whether the
values are sorted or what was made of each of them comes to the same.
-/

namespace ZincModel.Json

open Value

variable {α β : Type}

/-- The entries sorted by their keys; as they are if that fails. -/
def byName (es : List (Value × α)) : List (Value × α) := (sortEntries es).toOption.getD es

/-- The text of a key. -/
def keyText : Value → List Char
  | str k => k.toList
  | _ => []

theorem textEntries?_eq {es : List (Value × α)} (text : ∀ e ∈ es, ∃ k, e.1 = str k) :
    textEntries? es = some (es.map fun e => (keyText e.1, e.2)) := by
  induction es with
  | nil => rfl
  | cons e es ih =>
    obtain ⟨⟨k, hk⟩, others⟩ := List.forall_mem_cons.1 text
    obtain ⟨key, v⟩ := e
    cases hk
    rw [textEntries?, ih others]
    rfl

/-- Entries with text keys can be sorted. -/
theorem sortEntries_eq {es : List (Value × α)} (text : ∀ e ∈ es, ∃ k, e.1 = str k) :
    sortEntries es = .ok (byName es) := by
  unfold byName
  simp only [sortEntries, textEntries?_eq text]
  rfl

theorem byName_eq {es : List (Value × α)} (text : ∀ e ∈ es, ∃ k, e.1 = str k) :
    byName es = ((es.map fun e => (keyText e.1, e.2)).mergeSort fun p q => !lessText q.1 p.1).map
      fun p => (str (String.ofList p.1), p.2) := by
  simp only [byName, sortEntries, textEntries?_eq text]
  rfl

theorem byName_perm {es : List (Value × α)} (text : ∀ e ∈ es, ∃ k, e.1 = str k) : (byName es).Perm es := by
  have back : (es.map fun e => (keyText e.1, e.2)).map (fun p => (str (String.ofList p.1), p.2)) = es := by
    rw [List.map_map]
    apply (List.map_congr_left ?_).trans (List.map_id' es)
    intro e he
    obtain ⟨k, hk⟩ := text e he
    obtain ⟨key, v⟩ := e
    cases hk
    simp [keyText]
  rw [byName_eq text]
  exact ((List.mergeSort_perm _ _).map _).trans (by rw [back])

/-- Sorting goes by the keys alone. -/
theorem byName_map {es : List (Value × α)} (text : ∀ e ∈ es, ∃ k, e.1 = str k) (f : α → β) :
    byName (es.map fun e => (e.1, f e.2)) = (byName es).map fun e => (e.1, f e.2) := by
  have text' : ∀ e ∈ es.map fun e => (e.1, f e.2), ∃ k, e.1 = str k := fun e he => by
    obtain ⟨e', he', rfl⟩ := List.mem_map.1 he
    exact text e' he'
  have sorted : ((es.map fun e => (keyText e.1, e.2)).mergeSort fun p q => !lessText q.1 p.1).map
      (fun p => (p.1, f p.2)) =
      ((es.map fun e => (keyText e.1, e.2)).map fun p => (p.1, f p.2)).mergeSort fun p q => !lessText q.1 p.1 :=
    List.map_mergeSort fun _ _ _ _ => rfl
  rw [byName_eq text, byName_eq text']
  simp only [List.map_map, Function.comp_def] at sorted ⊢
  rw [← sorted]
  simp only [List.map_map, Function.comp_def]

end ZincModel.Json
