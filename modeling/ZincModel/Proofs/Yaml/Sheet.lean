import ZincModel.Proofs.Yaml.Cursor
import ZincModel.Yaml.Writer

/-!
# Sheets

What the marks and lines of a sheet add to the text. Behind a text or a mark the next line is always a new one
(`indentTo_eq`), while behind the mark of an item, a key or a value the first entry of a block goes on in the same
line (`indentTo_mark`).
-/

namespace ZincModel.Yaml.Sheet

variable {p q r : Sheet} {u w : List Char}

/-- The text `w` stands on the sheet `q` behind what was on the sheet `p`, and a piece of a line ends with it. -/
structure Adds (w : List Char) (p q : Sheet) : Prop where
  written : q.written = w.reverse ++ p.written
  afterBlank : q.afterBlank = false
  atMargin : q.atMargin = false

theorem Adds.trans (h : q.written = u.reverse ++ p.written) (h' : Adds w q r) : Adds (u ++ w) p r :=
  ⟨by rw [h'.written, h, List.reverse_append, List.append_assoc], h'.afterBlank, h'.atMargin⟩

theorem indentTo_eq {k : Nat} (h : p.atMargin = false ∨ k < p.column) :
    p.indentTo k = ⟨List.replicate k ' ' ++ '\n' :: p.written, k, true, true⟩ := by
  have fresh : (!p.atMargin || decide (k < p.column) || (p.column == k && !p.afterBlank)) = true := by
    rcases h with h | h <;> simp [h]
  cases k with
  | zero => simp [indentTo, fresh, newLine]
  | succ k => simp [indentTo, fresh, newLine, put]

theorem indentTo_newLine (p : Sheet) (k : Nat) :
    p.newLine.indentTo k = ⟨List.replicate k ' ' ++ '\n' :: p.written, k, true, true⟩ := by
  cases k with
  | zero => simp [indentTo, newLine]
  | succ k => simp [indentTo, newLine, put]

/-- Behind a mark that counts as indentation the next column but one can be reached in the same line. -/
theorem indentTo_mark {i : Nat} (margin : p.atMargin = true) (column : p.column = i + 1) :
    p.indentTo (i + 2) = ⟨' ' :: p.written, i + 2, true, true⟩ := by
  simp [indentTo, margin, column, put]

/-- What stands between a piece and what was written before it. -/
def gap (p : Sheet) : List Char := if p.afterBlank then [] else [' ']

theorem mark_eq (p : Sheet) (isIndent : Bool) (s : List Char) :
    p.mark isIndent s =
      ⟨(p.gap ++ s).reverse ++ p.written, p.column + (p.gap ++ s).length, false, p.atMargin && isIndent⟩ := by
  cases h : p.afterBlank <;> simp [mark, gap, h, put]

theorem adds_mark (p : Sheet) (s : List Char) : p.Adds (p.gap ++ s) (p.mark false s) := by
  rw [mark_eq]
  exact ⟨rfl, rfl, by simp⟩

theorem adds_close (s : List Char) (p : Sheet) : p.Adds s (p.close s) := ⟨rfl, rfl, rfl⟩

end ZincModel.Yaml.Sheet
