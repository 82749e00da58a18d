import ZincModel.Files

/-!
# What stands in a directory

A file has the path of its directory with its name behind it (`Path.ofText_append`). An entry that is placed is found
again (`Files.find?_place`), and where a directory is removed all that was placed in it is gone
(`Files.place_place_none`), so that files are left as if it had never been there (`Files.place_none_eq_self`).
-/

namespace ZincModel

namespace Path

theorem parts_ne_nil (s : List Char) : parts s ≠ [] := by
  unfold parts
  split
  · simp
  · split
    · simp
    · split <;> simp

/-- A slash ends a part. -/
theorem parts_append (s t : List Char) : parts (s ++ '/' :: t) = parts s ++ parts t := by
  induction s with
  | nil => rfl
  | cons c s ih =>
    rw [List.cons_append, parts, parts]
    split
    · rw [ih, List.cons_append]
    · rw [ih]
      cases e : parts s with
      | nil => exact absurd e (parts_ne_nil s)
      | cons part more => rfl

/-- The path of a file in a directory. -/
theorem ofText_append {directory name : String} (proper : directory ≠ "") (plain : parts name.toList = [name.toList])
    (notStay : isStay name.toList = false) (notUp : isUp name.toList = false) :
    ofText (directory ++ "/" ++ name) = ofText directory ++ [name] := by
  have text : (directory ++ "/" ++ name).toList = directory.toList ++ '/' :: name.toList := by simp
  have first : start (directory.toList ++ '/' :: name.toList) = start directory.toList := by
    cases e : directory.toList with
    | nil => exact absurd (String.toList_eq_nil_iff.1 e) proper
    | cons c s => rfl
  have last (path : Path) : step path name.toList = path ++ [name] := by
    simp [step, notStay, notUp]
  rw [ofText, text, first, parts_append, plain, List.foldl_append, List.foldl_cons, List.foldl_nil, last]
  rfl

end Path

namespace Files

variable {fs : Files} {path directory : Path} {entry : Entry}

theorem mem_place {e : Path × Entry} :
    e ∈ fs.place path (some entry) ↔ (e ∈ fs ∧ ¬path <+: e.1) ∨ e = (path, entry) := by
  simp [place, ← List.isPrefixOf_iff_prefix]

/-- Nothing stands at a path exactly if nothing is known of it or of a path through it. -/
theorem find?_eq_none_iff :
    fs.find? path = none ↔ (path.isOutward = false ∧ path ≠ Path.root) ∧ (∀ e ∈ fs, ¬path <+: e.1) ∧
      elsewhere.lookup path = none := by
  have longer {e : Path × Entry} (h : path <+: e.1) : path.length < e.1.length ∨ path = e.1 := by
    rcases Nat.lt_or_eq_of_le h.length_le with shorter | same
    · exact .inl shorter
    · exact .inr (h.eq_of_length same)
  have absent : (∀ e ∈ fs, ¬path <+: e.1) ↔
      (∀ e ∈ fs, ¬(path.length < e.1.length ∧ path <+: e.1)) ∧ fs.lookup path = none := by
    have unlisted : fs.lookup path = none ↔ ∀ e ∈ fs, path ≠ e.1 := by simp [List.lookup_eq_none_iff]
    rw [unlisted]
    constructor
    · intro h
      exact ⟨fun e he deeper => h e he deeper.2, fun e he same => h e he (same ▸ List.prefix_rfl)⟩
    · rintro ⟨deeper, apart⟩ e he h
      rcases longer h with below | same
      · exact deeper e he ⟨below, h⟩
      · exact apart e he same
  rw [absent]
  unfold find?
  split
  · next h =>
    simp only [Bool.or_eq_true, beq_iff_eq, List.any_eq_true, Bool.and_eq_true, decide_eq_true_eq,
      List.isPrefixOf_iff_prefix] at h
    simp only [reduceCtorEq, false_iff]
    rintro ⟨⟨inward, proper⟩, ⟨deeper, -⟩, -⟩
    rcases h with (h | h) | ⟨e, he, h⟩
    · rw [inward] at h
      cases h
    · exact proper h
    · exact deeper e he h
  · next h =>
    simp only [Bool.or_eq_true, beq_iff_eq, List.any_eq_true, Bool.and_eq_true, decide_eq_true_eq,
      List.isPrefixOf_iff_prefix, not_or, not_exists, not_and, Bool.not_eq_true] at h
    obtain ⟨⟨inward, proper⟩, deeper⟩ := h
    rw [Option.or_eq_none_iff]
    exact ⟨fun ⟨unlisted, elsewhere⟩ =>
        ⟨⟨inward, proper⟩, ⟨fun e he h => deeper e he h.1 h.2, unlisted⟩, elsewhere⟩,
      fun ⟨_, ⟨_, unlisted⟩, elsewhere⟩ => ⟨unlisted, elsewhere⟩⟩

/-- A file in a directory stands nowhere else, if it is not named like what is known there. -/
theorem own_append {name : String} (h : name ∉ ["..", "/", "dev", "null", "tmp"]) (directory : Path) :
    ((directory ++ [name]).isOutward = false ∧ directory ++ [name] ≠ Path.root) ∧
      elsewhere.lookup (directory ++ [name]) = none := by
  have last {path : Path} (same : directory ++ [name] = path) : path.getLast? = some name := by
    rw [← same, List.getLast?_concat]
  refine ⟨⟨?_, ?_⟩, ?_⟩
  · have notUp : name ≠ ".." := fun same => h (by simp [same])
    simp [Path.isOutward, notUp]
  · intro same
    have name : "/" = name := Option.some.inj (last same)
    exact h (by simp [← name])
  · rw [List.lookup_eq_none_iff]
    intro e he
    have names : ∀ e ∈ elsewhere, e.1.getLast? ∈ [some "dev", some "null", some "tmp"] := by decide
    have apart : directory ++ [name] ≠ e.1 := by
      intro same
      have found := names e he
      rw [last same] at found
      simp only [List.mem_cons, Option.some.injEq, List.not_mem_nil, or_false] at found
      exact h (by simp [found])
    simpa using apart

theorem find?_place (own : path.isOutward = false ∧ path ≠ Path.root) (entry : Entry) :
    (fs.place path (some entry)).find? path = some entry := by
  have deeper : (fs.place path (some entry)).any
      (fun e => decide (path.length < e.1.length) && path.isPrefixOf e.1) = false := by
    rw [List.any_eq_false]
    intro e he
    rcases mem_place.1 he with ⟨-, apart⟩ | rfl
    · simp [mt List.isPrefixOf_iff_prefix.1 apart]
    · simp
  have listed : (fs.place path (some entry)).lookup path = some entry := by
    have others : (fs.filter fun e => !path.isPrefixOf e.1).lookup path = none := by
      rw [List.lookup_eq_none_iff]
      intro e he
      simp only [List.mem_filter, Bool.not_eq_true', ← Bool.not_eq_true, List.isPrefixOf_iff_prefix] at he
      have ne : path ≠ e.1 := fun same => he.2 (same ▸ List.prefix_rfl)
      simpa using ne
    rw [place, List.lookup_append, others]
    simp
  unfold find?
  rw [deeper, listed]
  simp [own]

/-- Where a directory is removed, what was placed in it is gone. -/
theorem place_place_none (inside : directory <+: path) (entry : Option Entry) :
    (fs.place path entry).place directory none = fs.place directory none := by
  have others (e : Path × Entry) :
      ((!directory.isPrefixOf e.1) && !path.isPrefixOf e.1) = !directory.isPrefixOf e.1 := by
    have shorter : path.isPrefixOf e.1 = true → directory.isPrefixOf e.1 = true := by
      simpa only [List.isPrefixOf_iff_prefix] using inside.trans
    cases below : path.isPrefixOf e.1
    · simp
    · simp [shorter below]
  cases entry with
  | none => simp [place, List.filter_filter, others]
  | some entry => simp [place, List.filter_filter, others, List.isPrefixOf_iff_prefix.2 inside]

theorem place_none_eq_self (free : ∀ e ∈ fs, ¬directory <+: e.1) : fs.place directory none = fs := by
  apply List.filter_eq_self.2
  simpa [← List.isPrefixOf_iff_prefix] using free

end Files

end ZincModel
