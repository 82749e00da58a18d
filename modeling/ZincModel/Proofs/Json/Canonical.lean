import ZincModel.Proofs.Json.RoundTrip
import ZincModel.Proofs.Value.AtLeast

/-!
# One text for values that are alike

Different names have one sorted arrangement (`byName_eq_of_perm`), since texts have a linear order. So the JSON text of
a value with sorted entries does not depend on the order that the entries have in the value, at any depth
(`writeIn_alike`).
-/

namespace ZincModel

/-! ## The order of texts -/

theorem lessText_eq_false_iff {as bs : List Char} : lessText bs as = false ↔ bs = as ∨ lessText as bs = true := by
  rw [← Bool.not_eq_true', ← lessText_swap, Bool.or_eq_true, beq_iff_eq]

theorem lessText_trans {as bs cs : List Char} (first : lessText as bs = true) (second : lessText bs cs = true) :
    lessText as cs = true := by
  induction as generalizing bs cs with
  | nil =>
    cases cs with
    | nil => cases bs <;> cases second
    | cons => rfl
  | cons a as ih =>
    cases bs with
    | nil => cases first
    | cons b bs =>
      cases cs with
      | nil => cases second
      | cons c cs =>
        simp only [lessText] at first second ⊢
        by_cases ab : a = b
        · subst ab
          by_cases ac : a = c
          · rw [if_pos rfl] at first
            rw [if_pos ac] at second ⊢
            exact ih first second
          · rw [if_neg ac] at second ⊢
            exact second
        · rw [if_neg ab, decide_eq_true_eq] at first
          by_cases bc : b = c
          · subst bc
            rw [if_neg ab, decide_eq_true_eq]
            exact first
          · rw [if_neg bc, decide_eq_true_eq] at second
            have ac : a ≠ c := by
              rintro rfl
              omega
            rw [if_neg ac, decide_eq_true_eq]
            omega

/-- Of two texts, one does not come before the other. -/
theorem lessText_total (as bs : List Char) : lessText bs as = false ∨ lessText as bs = false := by
  cases before : lessText as bs with
  | false => exact .inr rfl
  | true => exact .inl (lessText_eq_false_iff.2 (.inr before))

theorem eq_of_lessText_eq_false {as bs : List Char} (before : lessText bs as = false) (after : lessText as bs = false) :
    as = bs := by
  rcases lessText_eq_false_iff.1 before with same | less
  · exact same.symm
  · exact absurd (after.symm.trans less) Bool.false_ne_true

theorem lessText_eq_false_trans {as bs cs : List Char} (first : lessText bs as = false)
    (second : lessText cs bs = false) : lessText cs as = false := by
  rcases lessText_eq_false_iff.1 first with rfl | less
  · exact second
  · rcases lessText_eq_false_iff.1 second with rfl | less'
    · exact first
    · exact lessText_eq_false_iff.2 (.inr (lessText_trans less less'))

namespace Json

open Text Value

variable {α : Type} {es es' : List (Value × α)}

/-! ## Sorted names -/

/-- The names in the arrangement are in order. -/
theorem byName_sorted (text : ∀ e ∈ es, ∃ k, e.1 = str k) :
    (byName es).Pairwise fun e f => lessText (keyText f.1) (keyText e.1) = false := by
  have trans (p q r : List Char × α) (first : (!lessText q.1 p.1) = true) (second : (!lessText r.1 q.1) = true) :
      (!lessText r.1 p.1) = true := by
    rw [Bool.not_eq_true'] at first second ⊢
    exact lessText_eq_false_trans first second
  have total (p q : List Char × α) : (!lessText q.1 p.1 || !lessText p.1 q.1) = true := by
    simpa using lessText_total p.1 q.1
  have inOrder := List.pairwise_mergeSort trans total (es.map fun e => (keyText e.1, e.2))
  rw [byName_eq text, List.pairwise_map]
  refine inOrder.imp fun {p q} before => ?_
  simpa [keyText] using before

/-- Entries with different names have one sorted arrangement, in whatever order they are given. -/
theorem byName_eq_of_perm (object : IsObject es) (p : es.Perm es') : byName es = byName es' := by
  have object' := object.perm p
  have same : (byName es).Perm (byName es') := ((byName_perm object.text).trans p).trans (byName_perm object'.text).symm
  refine List.Perm.eq_of_pairwise ?_ (byName_sorted object.text) (byName_sorted object'.text) same
  intro e f he hf before after
  replace he := (byName_perm object.text).mem_iff.1 he
  replace hf := p.mem_iff.2 ((byName_perm object'.text).mem_iff.1 hf)
  obtain ⟨k, hk⟩ := object.text e he
  obtain ⟨l, hl⟩ := object.text f hf
  have names : k = l := by
    rw [hk, hl] at before after
    exact String.toList_inj.1 (eq_of_lessText_eq_false before after)
  exact List.inj_on_of_nodup_map object.nodup he hf (by rw [hk, hl, names])

/-! ## What values are alike to -/

/-- A list is alike to lists only, item by item. -/
theorem alike_list {l : Option Label} {items : List Value} {v : Value} (h : Alike (.list l items) v) :
    ∃ l' items', v = .list l' items' ∧ List.Forall₂ Alike items items' := by
  cases h with
  | refl => exact ⟨l, items, rfl, List.forall₂_same.2 fun v _ => .refl v⟩
  | list _ l' same => exact ⟨l', _, rfl, same⟩

/-- A dictionary is alike to dictionaries only, which have alike values under the same keys in some order. -/
theorem alike_dict {l : Option Label} {entries : List (Value × Value)} {v : Value} (h : Alike (.dict l entries) v) :
    ∃ l' entries' arranged, v = .dict l' arranged ∧
      List.Forall₂ (fun e e' => e.1 = e'.1 ∧ Alike e.2 e'.2) entries entries' ∧ entries'.Perm arranged := by
  cases h with
  | refl => exact ⟨l, entries, entries, rfl, List.forall₂_same.2 fun e _ => ⟨rfl, .refl e.2⟩, .refl _⟩
  | @dict _ l' _ entries' arranged keys same p =>
    refine ⟨l', entries', arranged, rfl, ?_, p⟩
    exact (forall₂_entries keys.symm same).imp fun _ _ both => ⟨both.1.symm, both.2⟩

/-! ## Texts of alike values -/

theorem map_eq_of_forall₂ {β γ : Type} {R : β → β → Prop} {f g : β → γ} {as bs : List β} (h : List.Forall₂ R as bs)
    (same : ∀ a ∈ as, ∀ b ∈ bs, R a b → f a = g b) : as.map f = bs.map g := by
  induction h with
  | nil => rfl
  | cons first _ ih =>
    rw [List.map_cons, List.map_cons, same _ List.mem_cons_self _ List.mem_cons_self first,
      ih fun a ha b hb => same a (List.mem_cons_of_mem _ ha) b (List.mem_cons_of_mem _ hb)]

theorem isObject_writeEntries {sorted : Bool} {path : List Nat} {entries : List (Value × Value)}
    (object : IsObject entries) : IsObject (writeEntries sorted path entries) := by
  apply object.of_keys_eq
  rw [writeEntries_eq, List.map_map]
  rfl

/-- Values that JSON has are written alike if they are alike, wherever they stand. -/
theorem writeIn_alike {path path' : List Nat} {v v' : Value} (plain : Plain path v) (plain' : Plain path' v')
    (alike : Alike v v') : writeIn true path v = writeIn true path' v' := by
  induction plain generalizing path' v' with
  | null => cases alike; rfl
  | bool => cases alike; rfl
  | int => cases alike; rfl
  | str => cases alike; rfl
  | float => cases alike <;> rfl
  | @list path l items free _ ih =>
    obtain ⟨l', items', rfl, same⟩ := alike_list alike
    cases plain' with
    | list free' plain' =>
      have texts : writeItems true (enter l path) items = writeItems true (enter l' path') items' := by
        rw [writeItems_eq, writeItems_eq]
        exact map_eq_of_forall₂ same fun v hv v' hv' h => ih v hv (plain' v' hv') h
      simp only [writeIn, free, free', texts]
  | @dict path l entries free object _ ih =>
    obtain ⟨l', entries', arranged, rfl, same, p⟩ := alike_dict alike
    cases plain' with
    | dict free' object' plain' =>
      have texts : writeEntries true (enter l path) entries = writeEntries true (enter l' path') entries' := by
        rw [writeEntries_eq, writeEntries_eq]
        refine map_eq_of_forall₂ same fun e he e' he' h => ?_
        rw [writeEntry, writeEntry, h.1, ih e he (plain' e' (p.mem_iff.1 he')) h.2]
      have rows : IsObject (writeEntries true (enter l path) entries) := isObject_writeEntries object
      have rows' : IsObject (writeEntries true (enter l' path') arranged) := isObject_writeEntries object'
      have p' : (writeEntries true (enter l path) entries).Perm (writeEntries true (enter l' path') arranged) := by
        rw [texts, writeEntries_eq, writeEntries_eq]
        exact p.map _
      simp only [writeIn, free, free', Bool.false_eq_true, if_false, if_true, sortEntries_eq rows.text,
        sortEntries_eq rows'.text, byName_eq_of_perm rows p']

end Json

end ZincModel
