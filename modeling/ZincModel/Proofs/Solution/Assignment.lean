import ZincModel.Proofs.Model.History
import ZincModel.Proofs.Solution.Reading

/-!
# What a solution assigns

Each entry of a solution goes to the first variable with its name, if there is one, and no variable gets two. After a
solution has been assigned, the first variable with a name has the value under it (`get_assign_first`); all else in the
store is as it was. The decision variables of a model have different names, so that each of them is the first with its
own (`get_assign`).
-/

namespace ZincModel.Solution

variable {s : Store} {decision : List Ref} {entries : List (Value × Value)}

/-- What a solution has for a variable. -/
def entryFor (s : Store) (decision : List Ref) (entries : List (Value × Value)) (r : Ref) : Option Value :=
  if r ∈ decision then Value.lookup (s.name r) entries else none

/-- What a solution has for a variable, if it is the first one with its name. -/
def entryForFirst (s : Store) (decision : List Ref) (entries : List (Value × Value)) (r : Ref) : Option Value :=
  if named? s decision (.str (s.name r)) = some r then Value.lookup (s.name r) entries else none

theorem mem_of_named? {k : String} {r : Ref} (h : named? s decision (.str k) = some r) : r ∈ decision ∧ s.name r = k :=
  ⟨List.mem_of_find?_eq_some h, by simpa using List.find?_some h⟩

/-- Among variables with different names, the one with a name is found. -/
theorem named?_eq_some_iff (names : (decision.map s.name).Nodup) {k : String} {r : Ref} :
    named? s decision (.str k) = some r ↔ r ∈ decision ∧ s.name r = k := by
  constructor
  · exact mem_of_named?
  · rintro ⟨hr, rfl⟩
    obtain ⟨q, found⟩ : ∃ q, named? s decision (.str (s.name r)) = some q :=
      Option.isSome_iff_exists.1 (List.find?_isSome.2 ⟨r, hr, by simp⟩)
    obtain ⟨hq, same⟩ := mem_of_named? found
    rw [found, List.inj_on_of_nodup_map names hq hr same]

/-- Among variables with different names, each is the first one with its own. -/
theorem entryForFirst_eq (names : (decision.map s.name).Nodup) (entries : List (Value × Value)) (r : Ref) :
    entryForFirst s decision entries r = entryFor s decision entries r := by
  simp only [entryForFirst, entryFor, named?_eq_some_iff names, and_true]

/-- One entry goes to the variable that it names. -/
theorem get_assignEntry {s' : Store} (declared : ∀ r ∈ decision, r < s'.declared.size) (k : String) (v : Value)
    (r : Ref) :
    (assign.assignEntry (named? s decision (.str k)) v s').get r =
      if named? s decision (.str k) = some r then { s'.get r with value := v } else s'.get r := by
  cases found : named? s decision (.str k) with
  | none => rfl
  | some q =>
    change (s'.setValue q v).get r = _
    by_cases e : q = r
    · subst e
      rw [if_pos rfl, Store.get_setValue_self (declared q (mem_of_named? found).1)]
    · rw [if_neg fun h => e (Option.some.inj h), Store.get_setValue_ne (Ne.symm e)]

@[simp] theorem size_assignEntry (found : Option Ref) (v : Value) (s' : Store) :
    (assign.assignEntry found v s').declared.size = s'.declared.size := by
  cases found with
  | none => rfl
  | some q => exact Store.size_setValue _ _ _

/-- The fold goes over the entries; names are looked up in the store from before, and the values so far are in the
store that is folded. No variable is named by two entries, so what one entry sets is not set again. -/
theorem get_foldl_assignEntry (object : Value.IsObject entries) {s' : Store}
    (declared : ∀ r ∈ decision, r < s'.declared.size) (r : Ref) :
    (entries.foldl (fun s' e => assign.assignEntry (named? s decision e.1) e.2 s') s').get r =
      { s'.get r with value := (entryForFirst s decision entries r).getD (s'.get r).value } := by
  induction entries generalizing s' with
  | nil => simp [entryForFirst, Value.lookup]
  | cons e entries ih =>
    obtain ⟨⟨k, hk⟩, fresh, others⟩ := Value.IsObject.cons_iff.1 object
    obtain ⟨key, v⟩ := e
    cases hk
    rw [List.foldl_cons, ih others (by simpa using declared), get_assignEntry declared]
    by_cases h : named? s decision (.str k) = some r
    · obtain ⟨-, rfl⟩ := mem_of_named? h
      have once : Value.lookup (s.name r) entries = none := by
        rw [Option.eq_none_iff_forall_ne_some]
        intro w hw
        exact fresh (List.mem_map.2 ⟨_, (Value.lookup_eq_some_iff others).1 hw, rfl⟩)
      simp [entryForFirst, h, Value.lookup, once]
    · have passed : entryForFirst s decision ((.str k, v) :: entries) r = entryForFirst s decision entries r := by
        unfold entryForFirst
        split
        · next first =>
          have differ : ¬ k = s.name r := fun e => h (e ▸ first)
          simp [Value.lookup, differ]
        · rfl
      rw [if_neg h, passed]

/-- After a solution has been assigned, the first variable with a name has the value under it. -/
theorem get_assign_first (declared : ∀ r ∈ decision, r < s.declared.size) (object : Value.IsObject entries) (r : Ref) :
    (assign s decision entries).get r =
      { s.get r with value := (entryForFirst s decision entries r).getD (s.get r).value } :=
  get_foldl_assignEntry object declared r

/-- After a solution has been assigned, the decision variables that it names have its values. -/
theorem get_assign (names : (decision.map s.name).Nodup) (declared : ∀ r ∈ decision, r < s.declared.size)
    (object : Value.IsObject entries) (r : Ref) :
    (assign s decision entries).get r =
      { s.get r with value := (entryFor s decision entries r).getD (s.get r).value } := by
  rw [get_assign_first declared object, entryForFirst_eq names]

/-- To assign a solution is to give values to decision variables, one after the other. -/
theorem assign_leads (decisions : ∀ r ∈ decision, (s.get r).kind = .decision) (entries : List (Value × Value)) :
    s.Leads (assign s decision entries) := by
  have fold : ∀ s', s.Leads s' →
      s.Leads (entries.foldl (fun s' e => assign.assignEntry (named? s decision e.1) e.2 s') s') := by
    induction entries with
    | nil =>
      intro s' run
      exact run
    | cons e entries ih =>
      intro s' run
      apply ih
      dsimp only
      cases found : named? s decision e.1 with
      | none => exact run
      | some q =>
        obtain ⟨k, hk⟩ : ∃ k, e.1 = .str k := by
          rcases e with ⟨key | _, _⟩ <;> first | exact ⟨_, rfl⟩ | cases found
        rw [hk] at found
        have decided := decisions q (List.mem_of_find?_eq_some found)
        have still := (run.later (Store.lt_size_of_decision decided)).kind
        exact run.tail (.solve s' q e.2 (still.trans decided))
  exact fold s .refl

end ZincModel.Solution
