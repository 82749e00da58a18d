import Mathlib.Data.List.Induction
import Mathlib.Logic.Function.Basic
import ZincModel.Model.Document
import ZincModel.Proofs.Model.Rules
import ZincModel.Solution.Assignment

/-!
# Looking up names

Three ways lead from a name to a variable. A search through a model comes to the first variable with the name
(`Model.find?`); among the names that a document is read with the last variable counts (`Model.named`), and among those
that a solution is assigned by the first one (`Solution.named?`). For rows of variables in which no name stands twice,
all of them tell the same (`Tells`); so they agree on every model (`lookups_agree`).
-/

namespace ZincModel

variable {s : Store} {refs : List Ref}

/-! ## Names that are entered one after the other -/

/-- The variables by their names, where a later one takes the place of an earlier one. -/
def lastEntered (s : Store) (refs : List Ref) : String → Option Ref :=
  refs.foldl (fun entered r => Function.update entered (s.name r) (some r)) fun _ => none

/-- The variables by their names, where an earlier one keeps its place. -/
def firstEntered (s : Store) (refs : List Ref) : String → Option Ref :=
  refs.foldl (fun entered r => Function.update entered (s.name r) ((entered (s.name r)).or (some r))) fun _ => none

theorem lastEntered_concat (s : Store) (refs : List Ref) (r : Ref) :
    lastEntered s (refs ++ [r]) = Function.update (lastEntered s refs) (s.name r) (some r) := by
  simp [lastEntered]

theorem firstEntered_concat (s : Store) (refs : List Ref) (r : Ref) :
    firstEntered s (refs ++ [r]) =
      Function.update (firstEntered s refs) (s.name r) ((firstEntered s refs (s.name r)).or (some r)) := by
  simp [firstEntered]

/-- The names that a document is read with are entered so that the last variable counts. -/
theorem lookup_named (s : Store) (refs : List Ref) (name : String) :
    (Model.named s refs).lookup name = lastEntered s refs name := by
  induction refs using List.reverseRecOn with
  | nil => rfl
  | append_singleton refs r ih =>
    have front : Model.named s (refs ++ [r]) = (s.name r, r) :: Model.named s refs := by simp [Model.named]
    rw [front, lastEntered_concat, List.lookup_cons, ih]
    by_cases same : name = s.name r
    · subst same
      simp
    · rw [beq_eq_false_iff_ne.2 same, Function.update_of_ne same]

/-- The names that a solution is assigned by are entered so that the first variable counts. -/
theorem named?_eq_firstEntered (s : Store) (refs : List Ref) (name : String) :
    Solution.named? s refs (.str name) = firstEntered s refs name := by
  induction refs using List.reverseRecOn with
  | nil => rfl
  | append_singleton refs r ih =>
    rw [Solution.named?] at ih ⊢
    rw [firstEntered_concat, List.find?_append, ih]
    by_cases same : name = s.name r
    · subst same
      simp
    · simp [Ne.symm same, Function.update_of_ne same]

/-! ## Names that tell the variables apart -/

/-- The names lead to the variables of the row, and to no others. -/
def Tells (s : Store) (refs : List Ref) (find : String → Option Ref) : Prop :=
  ∀ name r, find name = some r ↔ r ∈ refs ∧ s.name r = name

namespace Tells

variable {find find' : String → Option Ref}

theorem nil : Tells s [] fun _ => none := by
  simp [Tells]

/-- Names that are told by are not told by others. -/
theorem eq_none_iff (h : Tells s refs find) {name : String} : find name = none ↔ name ∉ refs.map s.name := by
  rw [Option.eq_none_iff_forall_ne_some]
  simp [h name]

/-- A variable with a new name is entered. -/
theorem concat (h : Tells s refs find) {r : Ref} (fresh : s.name r ∉ refs.map s.name) :
    Tells s (refs ++ [r]) (Function.update find (s.name r) (some r)) := by
  intro name q
  by_cases same : name = s.name r
  · subst same
    have apart : ¬(q ∈ refs ∧ s.name q = s.name r) := fun h => fresh (List.mem_map.2 ⟨q, h⟩)
    rw [Function.update_self, Option.some_inj, List.mem_append, List.mem_singleton]
    constructor
    · rintro rfl
      exact ⟨.inr rfl, rfl⟩
    · rintro ⟨old | rfl, named⟩
      · exact absurd ⟨old, named⟩ apart
      · rfl
  · have other : s.name q = name → q ≠ r := fun named e => same (e ▸ named.symm)
    rw [Function.update_of_ne same, h name, List.mem_append, List.mem_singleton]
    exact ⟨fun ⟨old, named⟩ => ⟨.inl old, named⟩, fun ⟨member, named⟩ => ⟨member.resolve_right (other named), named⟩⟩

/-- Names that tell the same variables are the same. -/
theorem unique (h : Tells s refs find) (h' : Tells s refs find') : find = find' := by
  funext name
  apply Option.ext
  intro r
  rw [h name, h' name]

/-- A name that stands in both rows leads to the same variable. -/
theorem agree {refs' : List Ref} (h : Tells s refs find) (h' : Tells s refs' find') (sub : refs' ⊆ refs) {name : String}
    (known : name ∈ refs'.map s.name) : find' name = find name := by
  obtain ⟨r, hr, named⟩ := List.mem_map.1 known
  rw [(h' name r).2 ⟨hr, named⟩, (h name r).2 ⟨sub hr, named⟩]

end Tells

/-- As long as no name stands twice, it does not matter which variable counts. -/
theorem tells_entered (nodup : (refs.map s.name).Nodup) :
    Tells s refs (lastEntered s refs) ∧ Tells s refs (firstEntered s refs) := by
  induction refs using List.reverseRecOn with
  | nil => exact ⟨.nil, .nil⟩
  | append_singleton refs r ih =>
    rw [List.map_append, List.map_singleton, List.nodup_append] at nodup
    obtain ⟨nodup, -, apart⟩ := nodup
    obtain ⟨last, first⟩ := ih nodup
    have fresh : s.name r ∉ refs.map s.name := fun old => apart _ old _ (List.mem_singleton_self _) rfl
    rw [lastEntered_concat, firstEntered_concat, first.eq_none_iff.2 fresh, Option.none_or]
    exact ⟨last.concat fresh, first.concat fresh⟩

namespace Model

variable {m : Model}

/-- A search through a model tells its variables by their names. -/
theorem Lawful.tells_find? (h : m.Lawful s) : Tells s m.members (m.find? s) := by
  have search : m.find? s = firstEntered s m.members := funext (named?_eq_firstEntered s m.members)
  rw [search]
  exact (tells_entered h.names).2

/-- On every model the search for a name, the names that its document is read with, and for names of decision variables
those that a solution is assigned by lead to the same variable. All of them lead nowhere just if no variable has the
name, and the name of a variable leads to it. -/
theorem lookups_agree (h : Constructed s m) (name : String) :
    (∀ r, m.find? s name = some r ↔ r ∈ m.members ∧ s.name r = name) ∧
    (named s m.members).lookup name = m.find? s name ∧
    (name ∈ m.decision.map s.name → Solution.named? s m.decision (.str name) = m.find? s name) ∧
    (m.find? s name = none ∧ (named s m.members).lookup name = none ∧ Solution.named? s m.decision (.str name) = none ↔
      name ∉ m.members.map s.name) ∧
    ∀ r ∈ m.members, m.find? s (s.name r) = some r := by
  have lawful := h.lawful
  have searched := lawful.tells_find?
  have read := (tells_entered lawful.names).1
  have sub : m.decision ⊆ m.members := List.subset_append_right _ _
  have assigned : Tells s m.decision (firstEntered s m.decision) :=
    (tells_entered (lawful.names.sublist ((List.sublist_append_right _ _).map _))).2
  have same : (named s m.members).lookup name = m.find? s name := by
    rw [lookup_named]
    exact congrFun (read.unique searched) name
  refine ⟨searched name, same, fun known => ?_, ?_, fun r hr => (searched _ r).2 ⟨hr, rfl⟩⟩
  · rw [named?_eq_firstEntered]
    exact searched.agree assigned sub known
  · rw [same, named?_eq_firstEntered, searched.eq_none_iff, assigned.eq_none_iff]
    exact ⟨fun unknown => unknown.1, fun unknown => ⟨unknown, unknown, fun old => unknown (List.map_subset _ sub old)⟩⟩

/-- In the small model all three ways lead from a decision variable's name to it. -/
theorem lookups_agree_small :
    Constructed smallStore small ∧ small.find? smallStore "y" = some 2 ∧
      (named smallStore small.members).lookup "y" = some 2 ∧
      Solution.named? smallStore small.decision (.str "y") = some 2 := by
  obtain ⟨-, read, assigned, -, found⟩ := lookups_agree constructed_small "y"
  have known : "y" ∈ small.decision.map smallStore.name := by decide +kernel
  have name : smallStore.name 2 = "y" := by decide +kernel
  have searched : small.find? smallStore "y" = some 2 := name ▸ found 2 (by decide)
  exact ⟨constructed_small, searched, read.trans searched, (assigned known).trans searched⟩

end Model

end ZincModel
