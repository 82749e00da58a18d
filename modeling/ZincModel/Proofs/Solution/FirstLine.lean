import ZincModel.Proofs.Text.Decoding
import ZincModel.Proofs.Text.Line
import ZincModel.Solution.Reading

/-!
# The first line of an output

Where an output holds no solution, its first line decides what it says. Such a line can be taken whatever bytes were
left, since a text that is not empty has lines (`firstLine?_eq`). It is the longest start of the text without a line
boundary (`isLongestInner_firstLine`). It is empty exactly if there is nothing to read or the bytes of a line boundary
stand in front (`firstLine_file_eq_nil_iff`): malformed bytes give a character that is no boundary.
-/

namespace ZincModel.Solution

open Text

/-- The first line, taken step by step: an empty text has an empty one, and of another text the line at the first place
is taken. There is no result if no line is at that place. -/
def firstLine? (output : Option Entry) : Option (List Char) :=
  let text := artifactText output
  if text.isEmpty then some [] else (lines text)[0]?

/-- No line boundary is in the text. -/
def IsInner (s : List Char) : Prop := ∀ c ∈ s, isLineBoundary c = false

/-- `w` is the longest start of the text without a line boundary. -/
structure IsLongestInner (w text : List Char) : Prop where
  start : w <+: text
  inner : IsInner w
  longest : ∀ p, p <+: text → IsInner p → p.length ≤ w.length

theorem isLongestInner_takeWhile (text : List Char) : IsLongestInner (text.takeWhile (!isLineBoundary ·)) text where
  start := List.takeWhile_prefix _
  inner c hc := by simpa using List.all_eq_true.1 List.all_takeWhile c hc
  longest p := by
    rintro ⟨r, rfl⟩ inner
    rw [List.takeWhile_append_of_pos (by simpa [IsInner] using inner), List.length_append]
    exact Nat.le_add_right _ _

/-! ## The line that is taken -/

theorem firstLine_eq (output : Option Entry) :
    firstLine output = (artifactText output).takeWhile (!isLineBoundary ·) := headD_lines _

/-- Of every output a first line can be taken. -/
theorem firstLine?_eq (output : Option Entry) : firstLine? output = some (firstLine output) := by
  rw [firstLine_eq, firstLine?]
  by_cases empty : artifactText output = []
  · rw [empty]
    rfl
  · rw [if_neg (by simpa using empty), ← List.head?_eq_getElem?, head?_lines empty]

theorem isLongestInner_firstLine (output : Option Entry) :
    IsLongestInner (firstLine output) (artifactText output) := by
  rw [firstLine_eq]
  exact isLongestInner_takeWhile _

/-! ## Empty lines -/

/-- The bytes of a line boundary stand in front. -/
def StartsWithBoundary (bytes : List UInt8) : Prop := ∃ c, isLineBoundary c = true ∧ Utf8.encode [c] <+: bytes

theorem startsWithBoundary_iff {bytes : List UInt8} :
    StartsWithBoundary bytes ↔ ∃ c, isLineBoundary c = true ∧ (Utf8.decodeLossy bytes).head? = some c := by
  refine exists_congr fun c => and_congr_right fun boundary => (Utf8.head?_decodeLossy_iff ?_).symm
  rintro rfl
  cases boundary

/-- Newlines need not be unified to take the first line. -/
theorem firstLine_file (bytes : List UInt8) (isExecutable : Bool) :
    firstLine (some (.file bytes isExecutable)) = (Utf8.decodeLossy bytes).takeWhile (!isLineBoundary ·) := by
  rw [firstLine, artifactText, lines_unifyNewlines, headD_lines]

theorem firstLine_file_eq_nil_iff {bytes : List UInt8} {isExecutable : Bool} :
    firstLine (some (.file bytes isExecutable)) = [] ↔ bytes = [] ∨ StartsWithBoundary bytes := by
  rw [firstLine_file, startsWithBoundary_iff, ← Utf8.decodeLossy_eq_nil_iff]
  cases Utf8.decodeLossy bytes with
  | nil => simp
  | cons c s => simp [List.takeWhile_cons]

/-- Of every output, be it a file of whatever bytes, a directory or nothing at all, a first line can be taken. It is
the longest start of the text without a line boundary, and it is empty only without a file, in an empty file, and in
front of a line boundary. -/
theorem firstLine_longest (output : Option Entry) :
    firstLine? output = some (firstLine output) ∧ IsLongestInner (firstLine output) (artifactText output) ∧
    (firstLine output = [] ↔
      output = none ∨ output = some .directory ∨
        ∃ bytes isExecutable, output = some (.file bytes isExecutable) ∧ (bytes = [] ∨ StartsWithBoundary bytes)) := by
  refine ⟨firstLine?_eq output, isLongestInner_firstLine output, ?_⟩
  rcases output with _ | ⟨bytes, isExecutable⟩ | _
  · simp [firstLine_eq, artifactText]
  · simp [firstLine_file_eq_nil_iff]
  · simp [firstLine_eq, artifactText]

/-- A separator of lines that ends too early, and a whole one: only the latter ends the line. -/
example : firstLine (some (.file [0xE2, 0x80, 0xE2, 0x80, 0xA8, 0x41] false)) = ['\uFFFD'] := by decide

end ZincModel.Solution
