import ZincModel.Proofs.Solution.Assignment

/-!
# Whom a solution reaches

Variables of a list may share a name, and one variable may stand at several places. An entry of a solution reaches the
first variable with its name (`IsFirst`), and a key is left over exactly if no variable has it for a name. Nothing else
changes, and the order of the entries does not matter for what changes (`assign_first_named`).
-/

namespace ZincModel

/-- Stores with the same variables and the same counters are the same. -/
theorem Store.ext_get {s s' : Store} (size : s.declared.size = s'.declared.size) (get : ∀ r, s.get r = s'.get r)
    (nextName : s.nextName = s'.nextName) (nextNumber : s.nextNumber = s'.nextNumber) : s = s' := by
  have declared : s.declared = s'.declared := by
    apply Array.ext size
    intro i hi hi'
    simpa [Store.get, Array.getD, hi, hi'] using get i
  cases s
  cases s'
  simp_all

namespace Solution

variable {s : Store} {decision : List Ref} {entries : List (Value × Value)} {solution : List (String × Value)}

/-- Entries with texts for keys. -/
def texts (solution : List (String × Value)) : List (Value × Value) := solution.map fun e => (.str e.1, e.2)

theorem mem_texts {k : String} {v : Value} : (.str k, v) ∈ texts solution ↔ (k, v) ∈ solution := by
  simp [texts]

theorem map_fst_texts (solution : List (String × Value)) :
    (texts solution).map Prod.fst = (solution.map Prod.fst).map Value.str := by
  simp [texts, Function.comp_def]

theorem isObject_texts (keys : (solution.map Prod.fst).Nodup) : Value.IsObject (texts solution) where
  text e he := by
    obtain ⟨e, -, rfl⟩ := List.mem_map.1 he
    exact ⟨e.1, rfl⟩
  nodup := by
    rw [map_fst_texts]
    exact keys.map fun _ _ same => Value.str.inj same

/-! ## The first variable with a name -/

/-- The variable has the name, and none that stands in front of it has. -/
def IsFirst (s : Store) (decision : List Ref) (k : String) (r : Ref) : Prop :=
  s.name r = k ∧ ∃ before after, decision = before ++ r :: after ∧ ∀ q ∈ before, s.name q ≠ k

theorem named?_eq_some_iff_isFirst {k : String} {r : Ref} :
    named? s decision (.str k) = some r ↔ IsFirst s decision k r := by
  simp [named?, IsFirst, List.find?_eq_some_iff_append]

theorem isNone_named? (k : String) : (named? s decision (.str k)).isNone = decide (k ∉ decision.map s.name) := by
  rw [Bool.eq_iff_iff]
  simp [named?]

theorem IsFirst.exists {k : String} (h : k ∈ decision.map s.name) : ∃ r, IsFirst s decision k r := by
  cases found : named? s decision (.str k) with
  | none =>
    have absent : (named? s decision (.str k)).isNone = decide (k ∉ decision.map s.name) := isNone_named? k
    simp [found, h] at absent
  | some r => exact ⟨r, named?_eq_some_iff_isFirst.1 found⟩

/-- A key is left over if no variable has it for a name. -/
theorem unmatched_texts (s : Store) (decision : List Ref) (solution : List (String × Value)) :
    unmatched s decision (texts solution) =
      ((solution.map Prod.fst).filter (· ∉ decision.map s.name)).map .str := by
  have isLeft : (fun key => (named? s decision key).isNone) ∘ Value.str = fun k => decide (k ∉ decision.map s.name) :=
    funext isNone_named?
  rw [unmatched, map_fst_texts, List.filter_map, isLeft]

/-! ## What does not change -/

theorem assign_frame (s : Store) (decision : List Ref) (entries : List (Value × Value)) :
    (assign s decision entries).declared.size = s.declared.size ∧
      (assign s decision entries).nextName = s.nextName ∧ (assign s decision entries).nextNumber = s.nextNumber := by
  unfold assign
  refine List.foldlRecOn (motive := fun s' : Store => s'.declared.size = s.declared.size ∧
    s'.nextName = s.nextName ∧ s'.nextNumber = s.nextNumber) entries _ ⟨rfl, rfl, rfl⟩ ?_
  rintro s' ⟨size, name, number⟩ e -
  cases named? s decision e.1 with
  | none => exact ⟨size, name, number⟩
  | some r => exact ⟨(Store.size_setValue _ _ _).trans size, name, number⟩

/-- What changes is the same for entries in another order. -/
theorem assign_perm (declared : ∀ r ∈ decision, r < s.declared.size) (object : Value.IsObject entries)
    {entries' : List (Value × Value)} (p : entries.Perm entries') :
    assign s decision entries' = assign s decision entries := by
  obtain ⟨size, name, number⟩ := assign_frame s decision entries
  obtain ⟨size', name', number'⟩ := assign_frame s decision entries'
  refine Store.ext_get (size'.trans size.symm) (fun r => ?_) (name'.trans name.symm) (number'.trans number.symm)
  rw [get_assign_first declared object, get_assign_first declared (object.perm p), entryForFirst, entryForFirst,
    Value.lookup_perm object p]

/-- The entries of a solution go to the first variables with their names, in whatever order they are, and the other keys
are left over in their order. No other variable changes, and of these nothing but the value. -/
theorem assign_first_named (s : Store) (decision : List Ref) (solution : List (String × Value))
    (declared : ∀ r ∈ decision, r < s.declared.size) (keys : (solution.map Prod.fst).Nodup) :
    unmatched s decision (texts solution) =
      ((solution.map Prod.fst).filter (· ∉ decision.map s.name)).map .str ∧
    (∃ records, ignored (unmatched s decision (texts solution)) = .ok records) ∧
    (∀ k ∈ decision.map s.name, ∃ r, IsFirst s decision k r) ∧
    (∀ k v r, (k, v) ∈ solution → IsFirst s decision k r →
      (assign s decision (texts solution)).get r = { s.get r with value := v }) ∧
    (∀ r, (∀ k v, (k, v) ∈ solution → ¬IsFirst s decision k r) →
      (assign s decision (texts solution)).get r = s.get r) ∧
    ∀ solution', solution.Perm solution' →
      assign s decision (texts solution') = assign s decision (texts solution) := by
  have object := isObject_texts keys
  refine ⟨unmatched_texts s decision solution, ignored_isOk object, fun k hk => IsFirst.exists hk, ?_, ?_, ?_⟩
  · intro k v r entry first
    have found : Value.lookup k (texts solution) = some v := (Value.lookup_eq_some_iff object).2 (mem_texts.2 entry)
    obtain rfl : s.name r = k := first.1
    rw [get_assign_first declared object, entryForFirst, if_pos (named?_eq_some_iff_isFirst.2 first), found]
    rfl
  · intro r apart
    have nothing : entryForFirst s decision (texts solution) r = none := by
      unfold entryForFirst
      split
      · next first =>
        rw [Option.eq_none_iff_forall_ne_some]
        intro v found
        exact apart _ v (mem_texts.1 ((Value.lookup_eq_some_iff object).1 found)) (named?_eq_some_iff_isFirst.1 first)
      · rfl
    rw [get_assign_first declared object, nothing]
    rfl
  · intro solution' p
    exact assign_perm declared object (p.map _)

/-- Two variables with one name, and a third one between them. -/
def sharingStore : Store where
  declared := #[⟨"x", .int, .decision (.int 0) (.int 9), .null⟩, ⟨"y", .int, .decision (.int 0) (.int 9), .null⟩,
    ⟨"x", .float, .decision (.int 0) (.int 9), .null⟩]

/-- Of the variables that share a name the later declared one stands first here, and at two places. -/
theorem assign_sharingStore :
    let solution := [("_objective", .int 5), ("x", .int 7)]
    let s' := assign sharingStore [2, 1, 0, 2] (texts solution)
    unmatched sharingStore [2, 1, 0, 2] (texts solution) = [.str "_objective"] ∧
    s'.get 2 = { sharingStore.get 2 with value := .int 7 } ∧ s'.get 0 = sharingStore.get 0 ∧
    assign sharingStore [2, 1, 0, 2] (texts solution.reverse) = s' := by
  intro solution s'
  obtain ⟨unmatched, -, -, first, others, order⟩ :=
    assign_first_named sharingStore [2, 1, 0, 2] solution (by decide) (by decide)
  refine ⟨unmatched, first "x" _ 2 (by simp [solution]) ⟨rfl, [], _, rfl, by simp⟩, others 0 ?_,
    order _ solution.reverse_perm.symm⟩
  rintro k v - isFirst
  have found : named? sharingStore [2, 1, 0, 2] (.str "x") = some 2 := rfl
  obtain rfl : "x" = k := isFirst.1
  exact absurd (found.symm.trans (named?_eq_some_iff_isFirst.2 isFirst)) (by decide)

end Solution

end ZincModel
