import Mathlib.Data.List.Forall2
import Mathlib.Data.List.Nodup
import Mathlib.Data.List.Perm.Basic
import ZincModel.Value.Order

/-!
# Entries with text keys

Entries whose keys are different texts, as documents and solutions have them. Entering a value under a text key
keeps them so (`IsObject.insert`); entries that are so already stay as they are when they are entered one after the
other (`entriesOf_eq_self`), and what stands under a key does not depend on their order (`lookup_perm`).
-/

namespace ZincModel.Value

/-- The keys are different texts. -/
structure IsObject {α : Type} (es : List (Value × α)) : Prop where
  text : ∀ e ∈ es, ∃ k, e.1 = str k
  nodup : (es.map Prod.fst).Nodup

variable {α : Type} {es : List (Value × α)}

@[simp] theorem equal_str (a b : String) : equal (str a) (str b) = (a == b) := rfl

namespace IsObject

theorem nil : IsObject ([] : List (Value × α)) := ⟨by simp, List.nodup_nil⟩

theorem cons_iff {e : Value × α} :
    IsObject (e :: es) ↔ (∃ k, e.1 = str k) ∧ e.1 ∉ es.map Prod.fst ∧ IsObject es := by
  constructor
  · rintro ⟨text, nodup⟩
    obtain ⟨fresh, nodup⟩ := List.nodup_cons.1 nodup
    exact ⟨text e List.mem_cons_self, fresh, fun e h => text e (List.mem_cons_of_mem _ h), nodup⟩
  · rintro ⟨text, fresh, h⟩
    exact ⟨List.forall_mem_cons.2 ⟨text, h.text⟩, List.nodup_cons.2 ⟨fresh, h.nodup⟩⟩

theorem perm {es' : List (Value × α)} (h : IsObject es) (p : es.Perm es') : IsObject es' :=
  ⟨fun e he => h.text e (p.mem_iff.2 he), (p.map Prod.fst).nodup_iff.1 h.nodup⟩

/-- Whether entries have different text keys is a matter of their keys. -/
theorem of_keys_eq {β : Type} {fs : List (Value × β)} (h : IsObject es) (e : fs.map Prod.fst = es.map Prod.fst) :
    IsObject fs := by
  refine ⟨?_, e ▸ h.nodup⟩
  intro f hf
  obtain ⟨e', he', same⟩ := List.mem_map.1 (e ▸ List.mem_map_of_mem (f := Prod.fst) hf)
  obtain ⟨k, hk⟩ := h.text e' he'
  exact ⟨k, same ▸ hk⟩

end IsObject

/-- Related values under the same keys. -/
theorem forall₂_entries {β : Type} {R : α → β → Prop} {fs : List (Value × β)}
    (keys : fs.map Prod.fst = es.map Prod.fst) (values : List.Forall₂ R (es.map Prod.snd) (fs.map Prod.snd)) :
    List.Forall₂ (fun e f => f.1 = e.1 ∧ R e.2 f.2) es fs := by
  induction es generalizing fs with
  | nil =>
    obtain rfl : fs = [] := by simpa using keys
    exact .nil
  | cons e es ih =>
    obtain ⟨f, fs, rfl⟩ := List.exists_cons_of_ne_nil (l := fs) (by rintro rfl; cases keys)
    obtain ⟨key, keys⟩ := List.cons.inj keys
    cases values with
    | cons value values => exact .cons ⟨key, value⟩ (ih keys values)

/-! ## Entering values -/

/-- The keys after a value has been entered. -/
theorem keys_insert (text : ∀ e ∈ es, ∃ k, e.1 = str k) (k : String) (v : α) :
    (insert (str k) v es).map Prod.fst = es.map Prod.fst ∧ str k ∈ es.map Prod.fst ∨
      insert (str k) v es = es ++ [(str k, v)] ∧ str k ∉ es.map Prod.fst := by
  induction es with
  | nil => exact Or.inr ⟨rfl, by simp⟩
  | cons e es ih =>
    obtain ⟨⟨l, hl⟩, others⟩ := List.forall_mem_cons.1 text
    obtain ⟨key, w⟩ := e
    cases hl
    by_cases h : l = k
    · subst h
      exact Or.inl ⟨by simp [insert], by simp⟩
    · have differ : str k ≠ str l := fun e => h (str.inj e).symm
      rcases ih others with ⟨keys, hin⟩ | ⟨entries, hnot⟩
      · exact Or.inl ⟨by simp [insert, h, keys], List.mem_cons_of_mem _ hin⟩
      · exact Or.inr ⟨by simp [insert, h, entries], by simpa [differ] using hnot⟩

theorem IsObject.insert (h : IsObject es) (k : String) (v : α) : IsObject (insert (str k) v es) := by
  rcases keys_insert h.text k v with ⟨keys, -⟩ | ⟨entries, fresh⟩
  · exact h.of_keys_eq keys
  · rw [entries]
    have first : IsObject ((str k, v) :: es) := cons_iff.2 ⟨⟨k, rfl⟩, fresh, h⟩
    exact first.perm (List.perm_append_singleton _ _).symm

theorem isObject_foldl_insert {pairs : List (Value × α)} (text : ∀ p ∈ pairs, ∃ k, p.1 = str k)
    (h : IsObject es) : IsObject (pairs.foldl (fun entries p => insert p.1 p.2 entries) es) := by
  induction pairs generalizing es with
  | nil => exact h
  | cons p pairs ih =>
    obtain ⟨⟨k, hk⟩, text⟩ := List.forall_mem_cons.1 text
    rw [List.foldl_cons, hk]
    exact ih text (h.insert k p.2)

/-- What becomes of entries with text keys. -/
theorem isObject_entriesOf {pairs : List (Value × α)} (text : ∀ p ∈ pairs, ∃ k, p.1 = str k) :
    IsObject (entriesOf pairs) :=
  isObject_foldl_insert text .nil

theorem foldl_insert_eq_append {pairs : List (Value × α)} (h : IsObject (es ++ pairs)) :
    pairs.foldl (fun entries p => insert p.1 p.2 entries) es = es ++ pairs := by
  induction pairs generalizing es with
  | nil => simp
  | cons p pairs ih =>
    obtain ⟨k, hk⟩ := h.text p (by simp)
    have before : str k ∉ es.map Prod.fst := by
      have nodup := h.nodup
      rw [List.map_append, List.map_cons, hk] at nodup
      intro hin
      exact (List.disjoint_of_nodup_append nodup hin) List.mem_cons_self
    have text : ∀ e ∈ es, ∃ k, e.1 = str k := fun e he => h.text e (List.mem_append_left _ he)
    have entered : insert p.1 p.2 es = es ++ [p] := by
      obtain ⟨key, v⟩ := p
      cases hk
      rcases keys_insert text k v with ⟨-, hin⟩ | ⟨entries, -⟩
      · exact absurd hin before
      · exact entries
    rw [List.foldl_cons, entered, ih (by simpa using h)]
    simp

/-- Entries with different text keys stay as they are. -/
theorem entriesOf_eq_self {pairs : List (Value × α)} (h : IsObject pairs) : entriesOf pairs = pairs :=
  foldl_insert_eq_append h

/-! ## Looking up -/

theorem lookup_eq_some_iff {es : List (Value × Value)} (h : IsObject es) {k : String} {v : Value} :
    lookup k es = some v ↔ (str k, v) ∈ es := by
  induction es with
  | nil => simp [lookup]
  | cons e es ih =>
    obtain ⟨⟨l, hl⟩, fresh, others⟩ := IsObject.cons_iff.1 h
    obtain ⟨key, w⟩ := e
    cases hl
    by_cases e : l = k
    · subst e
      have absent : (str l, v) ∉ es := fun hin => fresh (List.mem_map.2 ⟨_, hin, rfl⟩)
      simp [lookup, absent, eq_comm]
    · have differ : k ≠ l := fun e' => e e'.symm
      simp [lookup, e, ih others, differ]

/-- What stands under a key does not depend on the order of the entries. -/
theorem lookup_perm {es es' : List (Value × Value)} (h : IsObject es) (p : es.Perm es') (k : String) :
    lookup k es' = lookup k es := by
  apply Option.ext
  intro v
  rw [lookup_eq_some_iff (h.perm p), lookup_eq_some_iff h, p.mem_iff]

end ZincModel.Value
