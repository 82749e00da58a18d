import Mathlib.Data.List.Basic
import ZincModel.Proofs.Json.Text
import ZincModel.Yaml.Layout

/-!
# Places in a text of printable ASCII and line feeds

Going forward over such a text is easy to follow: every reader that goes past the characters `w` ends at
`c.advance w.length`, and what is left there, the line and the column can be told from `w` alone.
-/

namespace ZincModel

namespace Json.IsPrintable

open Yaml

variable {c : Char}

theorem isBreak (h : IsPrintable c) : isBreak c = false := by
  have apart (d : Char) (out : ¬IsPrintable d) : c ≠ d := fun e => out (e ▸ h)
  simp [Yaml.isBreak, apart '\n' (by decide), apart '\r' (by decide), apart '\x85' (by decide),
    apart '\u2028' (by decide), apart '\u2029' (by decide)]

theorem isGap (h : IsPrintable c) : isGap c = (c == ' ') := by
  have tab : c ≠ '\t' := fun e => absurd (e ▸ h) (by decide)
  simp [Yaml.isGap, h.isBreak, tab]

theorem isReadable (h : IsPrintable c) : isReadable c = true := by
  simp [Yaml.isReadable, show 0x20 ≤ c.toNat from h.1, show c.toNat ≤ 0x7E from h.2]

end Json.IsPrintable

namespace Yaml

open Json (IsPrintable)

/-- The character may stand in a text that is written. -/
def IsWritten (c : Char) : Prop := c = '\n' ∨ IsPrintable c

theorem IsWritten.isReadable {c : Char} (h : IsWritten c) : isReadable c = true := by
  rcases h with rfl | h
  · rfl
  · exact h.isReadable

theorem isPrintable_space : IsPrintable ' ' := by decide

theorem isPrintable_replicate (n : Nat) : ∀ c ∈ List.replicate n ' ', IsPrintable c := fun _ hc =>
  (List.eq_of_mem_replicate hc).symm ▸ isPrintable_space

namespace Cursor

variable {c : Cursor} {x : Char} {s t u w : List Char}

/-! ## Going forward -/

theorem next_newline (h : c.rest = '\n' :: t) : c.next = ⟨t, c.beyond, c.index + 1, c.line + 1, 0, c.size⟩ := by
  simp [next, h, isBreak]

theorem next_printable (h : c.rest = x :: t) (hx : IsPrintable x) :
    c.next = ⟨t, c.beyond, c.index + 1, c.line, c.column + 1, c.size⟩ := by
  have mark : x ≠ '\uFEFF' := fun e => absurd (e ▸ hx) (by decide)
  simp [next, h, hx.isBreak, mark]

@[simp] theorem rest_next (c : Cursor) : c.next.rest = c.rest.tail := by
  unfold next
  split
  · next e => simp [e]
  · next e => split_ifs <;> simp [e]

@[simp] theorem beyond_next (c : Cursor) : c.next.beyond = c.beyond := by
  unfold next
  split
  · rfl
  · split_ifs <;> rfl

@[simp] theorem size_next (c : Cursor) : c.next.size = c.size := by
  unfold next
  split
  · rfl
  · split_ifs <;> rfl

theorem line_le_next (c : Cursor) : c.line ≤ c.next.line := by
  unfold next
  split
  · exact Nat.le_refl _
  · split_ifs <;> simp

@[simp] theorem advance_zero (c : Cursor) : c.advance 0 = c := rfl

theorem advance_succ (n : Nat) (c : Cursor) : c.advance (n + 1) = c.next.advance n := rfl

theorem advance_add (m n : Nat) (c : Cursor) : c.advance (m + n) = (c.advance m).advance n := by
  induction m generalizing c with
  | zero => simp
  | succ m ih => rw [Nat.succ_add, advance_succ, ih, advance_succ]

@[simp] theorem rest_advance (n : Nat) (c : Cursor) : (c.advance n).rest = c.rest.drop n := by
  induction n generalizing c with
  | zero => rfl
  | succ n ih => rw [advance_succ, ih, rest_next, List.drop_tail]

@[simp] theorem beyond_advance (n : Nat) (c : Cursor) : (c.advance n).beyond = c.beyond := by
  induction n generalizing c with
  | zero => rfl
  | succ n ih => rw [advance_succ, ih, beyond_next]

@[simp] theorem size_advance (n : Nat) (c : Cursor) : (c.advance n).size = c.size := by
  induction n generalizing c with
  | zero => rfl
  | succ n ih => rw [advance_succ, ih, size_next]

theorem line_le_advance (n : Nat) (c : Cursor) : c.line ≤ (c.advance n).line := by
  induction n generalizing c with
  | zero => exact Nat.le_refl _
  | succ n ih => exact Nat.le_trans (line_le_next c) (ih _)

theorem rest_advance_append (h : c.rest = w ++ t) : (c.advance w.length).rest = t := by simp [h]

/-- Over printable characters only the column changes. -/
theorem advance_printable (h : c.rest = w ++ t) (hw : ∀ x ∈ w, IsPrintable x) :
    c.advance w.length = ⟨t, c.beyond, c.index + w.length, c.line, c.column + w.length, c.size⟩ := by
  induction w generalizing c with
  | nil => subst h; rfl
  | cons x w ih =>
    rw [List.cons_append] at h
    have first := next_printable h (hw x (by simp))
    have inner := ih (c := c.next) (by rw [first]) fun y hy => hw y (by simp [hy])
    rw [List.length_cons, advance_succ, inner, first]
    simp only [mk.injEq, true_and, and_true]
    omega

theorem advance_spaces {n : Nat} (h : c.rest = List.replicate n ' ' ++ t) :
    c.advance n = ⟨t, c.beyond, c.index + n, c.line, c.column + n, c.size⟩ := by
  simpa using advance_printable h (isPrintable_replicate n)

/-- Behind the end of a line and `d` spaces the column is `d`. -/
theorem advance_line {d : Nat} (h : c.rest = '\n' :: (List.replicate d ' ' ++ t)) :
    c.advance (d + 1) = ⟨t, c.beyond, c.index + 1 + d, c.line + 1, d, c.size⟩ := by
  have down := next_newline h
  rw [advance_succ, advance_spaces (t := t) (by rw [down]), down, Nat.zero_add]

theorem rest_advance_lines {m k : Nat}
    (h : c.rest = '\n' :: (List.replicate m '\n' ++ (List.replicate k ' ' ++ t))) :
    (c.advance (m + k + 1)).rest = t := by
  have length : ('\n' :: (List.replicate m '\n' ++ List.replicate k ' ')).length = m + k + 1 := by simp
  rw [← length]
  exact rest_advance_append (by simpa using h)

/-- What is left is not longer than the whole text. -/
def Fits (c : Cursor) : Prop := c.rest.length ≤ c.size

theorem Fits.advance (h : c.Fits) (n : Nat) : (c.advance n).Fits := by
  have shorter : (c.rest.drop n).length ≤ c.rest.length := by simp
  simpa [Fits] using Nat.le_trans shorter h

theorem Fits.next (h : c.Fits) : c.next.Fits := h.advance 1

/-! ## Runs and ends of lines -/

theorem takeWhile_eq {p : Char → Bool} (h : c.rest = u ++ t) (hu : ∀ x ∈ u, p x = true)
    (ht : ∀ x, t.head? = some x → p x = false) : c.takeWhile p = (u, c.advance u.length) := by
  have taken : c.rest.takeWhile p = u := by
    rw [h, List.takeWhile_append_of_pos hu]
    cases t with
    | nil => simp
    | cons x t => simp [ht x rfl]
  rw [takeWhile, taken]

/-- The place behind spaces, in front of something else. -/
theorem skipSpaces_eq {n : Nat} (h : c.rest = List.replicate n ' ' ++ t) (ht : t.head? ≠ some ' ') :
    c.skipSpaces = c.advance n := by
  have taken := takeWhile_eq (p := (· == ' ')) h
    (fun x hx => by simp [List.eq_of_mem_replicate hx])
    (fun x hx => by simpa using fun e : x = ' ' => ht (e ▸ hx))
  rw [skipSpaces, skipWhile, taken, List.length_replicate]

theorem skipComment_eq (h : c.rest.head? ≠ some '#') : c.skipComment = c := by
  unfold skipComment
  split
  · next e => simp [e] at h
  · rfl

theorem lineBreak?_newline (h : c.rest = '\n' :: t) : c.lineBreak? = some ('\n', c.next) := by
  simp [lineBreak?, h]

theorem lineBreak?_eq_none (h : ∀ x, c.rest.head? = some x → isBreak x = false) : c.lineBreak? = none := by
  unfold lineBreak?
  split
  · next e => simpa [isBreak] using h '\r' (by simp [e])
  · next x _ _ e =>
    have inner := h x (by simp [e])
    simp only [isBreak, Bool.or_eq_false_iff, beq_eq_false_iff_ne] at inner
    simp [inner]
  · rfl

theorem look_eq (h : c.beyond = none) : c.look = .ok () := by
  unfold look
  rw [h]
  split
  · next e => cases e
  · rfl

end Cursor

end Yaml

end ZincModel
