import ZincModel.Proofs.Number.Layout
import ZincModel.Proofs.Yaml.Nodes

/-!
# Anchors

The anchors of an outline are different words (`Outline.anchors_proper`), and every alias in it has one
(`Outline.resolves_anchors`).
-/

namespace ZincModel.Yaml

open Text (isDigit)

/-! ## Names -/

theorem isDigit_paddedNumeral (width n : Nat) : ∀ c ∈ paddedNumeral width n, isDigit c = true := by
  have digit : ∀ d < 10, isDigit (Char.ofNat (48 + d)) = true := by decide
  induction width generalizing n with
  | zero => simp [paddedNumeral]
  | succ width ih =>
    rw [paddedNumeral, List.forall_mem_append]
    exact ⟨ih _, List.forall_mem_singleton.2 (digit _ (Nat.mod_lt _ (by decide)))⟩

theorem ofDigitChars_paddedNumeral (width n : Nat) :
    Nat.ofDigitChars 10 (paddedNumeral width n) 0 = n % 10 ^ width := by
  have digit : ∀ d < 10, (Char.ofNat (48 + d)).toNat - '0'.toNat = d := by decide
  induction width generalizing n with
  | zero => simp [paddedNumeral, Nat.mod_one]
  | succ width ih =>
    rw [paddedNumeral, Nat.ofDigitChars_append, ih, Nat.ofDigitChars_cons, Nat.ofDigitChars_nil,
      digit _ (Nat.mod_lt _ (by decide)), Nat.pow_succ', Nat.mod_mul, Nat.add_comm]

/-- The name of an anchor is `id` and digits with the number. -/
theorem exists_anchorNumber (n : Nat) : ∃ ds, anchorNumber n = 'i' :: 'd' :: ds ∧ (∀ c ∈ ds, isDigit c = true) ∧
    Nat.ofDigitChars 10 ds 0 = n := by
  refine ⟨_, rfl, ?_⟩
  split
  · next small =>
    refine ⟨isDigit_paddedNumeral 3 n, ?_⟩
    rw [ofDigitChars_paddedNumeral]
    exact Nat.mod_eq_of_lt small
  · exact ⟨Double.isDigit_toDigits n, Nat.ofDigitChars_ten_toDigits⟩

theorem anchorNumber_injective : Function.Injective anchorNumber := by
  intro m n e
  obtain ⟨ds, spelled, -, value⟩ := exists_anchorNumber m
  obtain ⟨ds', spelled', -, value'⟩ := exists_anchorNumber n
  rw [spelled, spelled'] at e
  obtain rfl : ds = ds' := (List.cons.inj (List.cons.inj e).2).2
  exact value.symm.trans value'

theorem isWord_anchorNumber (n : Nat) : ∀ c ∈ anchorNumber n, isWord c = true := by
  obtain ⟨ds, spelled, digits, -⟩ := exists_anchorNumber n
  rw [spelled]
  refine List.forall_mem_cons.2 ⟨by decide, List.forall_mem_cons.2 ⟨by decide, fun c hc => ?_⟩⟩
  have digit := digits c hc
  simp only [isDigit, Bool.and_eq_true] at digit
  simp [isWord, digit]

/-! ## Numbered anchors -/

/-- The names of anchors, in the order in which their numbers are needed. -/
def numbered (start : Nat) (ns : List Nat) : Anchors := (ns.zipIdx start).map fun l => (l.1, anchorNumber (l.2 + 1))

theorem numbered_cons (start n : Nat) (ns : List Nat) :
    numbered start (n :: ns) = (n, anchorNumber (start + 1)) :: numbered (start + 1) ns := rfl

/-- The name of an anchor tells the place of its number. -/
theorem lookup_numbered {start : Nat} {ns : List Nat} {m : Nat} {name : List Char}
    (h : (numbered start ns).lookup m = some name) : ∃ i, ns[i]? = some m ∧ name = anchorNumber (start + i + 1) := by
  induction ns generalizing start with
  | nil => cases h
  | cons n ns ih =>
    rw [numbered_cons, List.lookup_cons] at h
    by_cases here : m = n
    · subst here
      rw [beq_self_eq_true] at h
      cases h
      exact ⟨0, rfl, rfl⟩
    · rw [beq_eq_false_iff_ne.2 here] at h
      obtain ⟨i, found, spelled⟩ := ih h
      exact ⟨i + 1, found, by rw [spelled, Nat.add_assoc start, Nat.add_comm 1 i]⟩

theorem isSome_lookup_numbered {start : Nat} {ns : List Nat} {m : Nat} (h : m ∈ ns) :
    ((numbered start ns).lookup m).isSome := by
  induction ns generalizing start with
  | nil => cases h
  | cons n ns ih =>
    rw [numbered_cons, List.lookup_cons]
    by_cases here : m = n
    · simp [here]
    · rw [beq_eq_false_iff_ne.2 here]
      exact ih (List.mem_of_ne_of_mem here h)

/-- The anchors of an outline are different words. -/
theorem Outline.anchors_proper (o : Outline) : o.anchors.Proper where
  named n name found := by
    obtain ⟨i, -, rfl⟩ := lookup_numbered found
    obtain ⟨ds, spelled, -⟩ := exists_anchorNumber (0 + i + 1)
    exact ⟨by rw [spelled]; simp, isWord_anchorNumber _⟩
  injective := by
    intro m n name found found'
    obtain ⟨i, place, spelled⟩ := lookup_numbered found
    obtain ⟨j, place', spelled'⟩ := lookup_numbered found'
    have same : i = j := by
      have numbers := anchorNumber_injective (spelled.symm.trans spelled')
      omega
    rw [same, place'] at place
    exact (Option.some.inj place).symm

/-! ## Aliases -/

/-- The numbers have anchors. -/
def Anchors.Resolves (anchors : Anchors) (ns : List Nat) : Prop := ∀ n ∈ ns, (anchors.lookup n).isSome

theorem Outline.resolves_anchors (o : Outline) : o.anchors.Resolves (o.aliased []) :=
  fun _ h => isSome_lookup_numbered h

mutual

theorem Outline.subset_aliased (o : Outline) (ns : List Nat) : ns ⊆ o.aliased ns := by
  cases o with
  | scalar => exact List.Subset.refl _
  | sequence number tag items => exact subset_aliasedAll items ns
  | mapping number tag entries => exact subset_aliasedEntries entries ns
  | «alias» n =>
    rw [Outline.aliased]
    split
    · exact List.Subset.refl _
    · exact List.subset_append_left _ _
termination_by structural o

theorem subset_aliasedAll (os : List Outline) (ns : List Nat) : ns ⊆ aliasedAll os ns := by
  cases os with
  | nil => exact List.Subset.refl _
  | cons o os => exact List.Subset.trans (o.subset_aliased ns) (subset_aliasedAll os _)
termination_by structural os

theorem subset_aliasedEntries (es : List (Outline × Outline)) (ns : List Nat) : ns ⊆ aliasedEntries es ns := by
  cases es with
  | nil => exact List.Subset.refl _
  | cons e es =>
    obtain ⟨k, v⟩ := e
    exact List.Subset.trans (List.Subset.trans (k.subset_aliased ns) (v.subset_aliased _)) (subset_aliasedEntries es _)
termination_by structural es

end

/-- The aliases in an item are among those in the sequence. -/
theorem aliased_subset_all {os : List Outline} {o : Outline} (h : o ∈ os) (ns : List Nat) :
    ∃ ns', o.aliased ns' ⊆ aliasedAll os ns := by
  induction os generalizing ns with
  | nil => cases h
  | cons o' os ih =>
    rcases List.mem_cons.1 h with rfl | h
    · exact ⟨ns, subset_aliasedAll os _⟩
    · exact ih h _

/-- The aliases in the value of an entry are among those in the mapping. -/
theorem aliased_subset_entries {es : List (Outline × Outline)} {e : Outline × Outline} (h : e ∈ es) (ns : List Nat) :
    ∃ ns', e.2.aliased ns' ⊆ aliasedEntries es ns := by
  induction es generalizing ns with
  | nil => cases h
  | cons e' es ih =>
    rcases List.mem_cons.1 h with rfl | h
    · exact ⟨_, subset_aliasedEntries es _⟩
    · exact ih h _

end ZincModel.Yaml
