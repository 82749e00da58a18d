import ZincModel.Proofs.Solution.Delivery

/-!
# What stands behind a separator

A separator line and all that follows it do not matter to what is parsed (`parse_separated`), be it further solutions or
no solution at all. The lines in front of the separator are the same with and without it, since a text whose last line
has been ended is cut into lines by itself.
-/

namespace ZincModel.Solution

open Text

/-- A separator line is not empty, so it is a line of its own. -/
theorem lines_separator {s : List Char} (inner : ∀ c ∈ s, isLineBoundary c = false) (separator : isSeparator s = true)
    (r : List Char) : lines (s ++ '\n' :: r) = s :: lines r := by
  have some : s ≠ [] := by
    rintro rfl
    exact absurd separator (by simp [isSeparator_nil])
  rw [lines_append some inner, lines_newline, prepend, List.append_nil]

/-- The first part ends in front of a separator line, or before. -/
theorem firstPart_separated {p x line : List Char} {more : List (List Char)} (complete : IsComplete p)
    (first : lines x = line :: more) (separator : isSeparator line = true) : firstPart (p ++ x) = firstPart p := by
  have stop : (lines x).takeWhile (!isSeparator ·) = [] := takeWhile_separator first separator
  have same : (lines (p ++ x)).takeWhile (!isSeparator ·) = (lines p).takeWhile (!isSeparator ·) := by
    rw [lines_complete_append complete, List.takeWhile_append, stop, List.append_nil]
    split
    · next all => exact ((List.takeWhile_prefix _).eq_of_length all).symm
    · rfl
  rw [firstPart, firstPart, same]

/-- Whatever stands behind a separator line, what is parsed is what stands in front of it, be there an earlier separator
or not. A solution in front is the one that the variables get. -/
theorem parse_separated (p s r : List Char) (complete : IsComplete p) (inner : ∀ c ∈ s, isLineBoundary c = false)
    (separator : ∃ w, IsRule w ∧ w <+: strip s) :
    parse (p ++ s ++ '\n' :: r) = parse p ∧
    ∀ entries, parse p = .ok (some entries) → ∀ store decision isExecutable,
      let result := interpret store decision (some (.file (Utf8.encode (p ++ s ++ '\n' :: r)) isExecutable))
      result.status = .ok .satisfied ∧ result.store = assign store decision entries := by
  have front : parse (p ++ s ++ '\n' :: r) = parse p := by
    have isSeparator : isSeparator s = true := isSeparator_iff.2 separator
    rw [List.append_assoc]
    exact parse_congr (firstPart_separated complete (lines_separator inner isSeparator r) isSeparator)
  refine ⟨front, fun entries holds store decision isExecutable => ?_⟩
  have read : parse (artifactText (some (.file (Utf8.encode (p ++ s ++ '\n' :: r)) isExecutable))) =
      .ok (some entries) := by
    rw [artifactText_encode, parse_unifyNewlines, front, holds]
  constructor
  · rw [interpret_status, read]
  · rw [interpret_store, read]

/-- A solution on a line of its own. -/
def firstSolution : List Char := ['{', '"', 'y', '"', ':', '3', '}', '\r', '\n']

/-- Another one, and a line that ends the search. -/
def laterSolution : List Char := ['{', '"', 'y', '"', ':', '4', '}', '\n'] ++ List.replicate 10 '='

/-- The separator between them is moved in from the margin. -/
theorem parse_firstSolution :
    let output := firstSolution ++ '\t' :: List.replicate 10 '-' ++ '\n' :: laterSolution
    parse output = .ok (some [(.str "y", .int 3)]) ∧ ∀ store decision isExecutable,
      (interpret store decision (some (.file (Utf8.encode output) isExecutable))).store =
        assign store decision [(.str "y", .int 3)] := by
  have holds : parse firstSolution = .ok (some [(.str "y", .int 3)]) :=
    (parse_congr (by decide +kernel)).trans holds_smallOutput
  obtain ⟨front, bound⟩ := parse_separated firstSolution ('\t' :: List.replicate 10 '-') laterSolution
    (Or.inr ⟨['{', '"', 'y', '"', ':', '3', '}', '\r'], rfl⟩) (by simp [isLineBoundary])
    ⟨List.replicate 10 '-', Or.inl rfl, by decide⟩
  exact ⟨front.trans holds, fun store decision isExecutable => (bound _ holds store decision isExecutable).2⟩

end ZincModel.Solution
