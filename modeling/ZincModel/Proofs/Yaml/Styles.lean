import ZincModel.Proofs.Yaml.Leaves

/-!
# Scalars in their styles

Every scalar is written in a style in which it can be read again (`scalar_text`). A short key stays within its line,
where it takes as many characters as `keyWidth` says (`scalar_line`).
-/

namespace ZincModel.Yaml

open Json (IsPrintable)
open Sheet (isPlainInDouble escapeOf)

/-! ## Styles -/

section Style

variable {tag : Tag} {s : List Char}

/-- The style of a short key is that of any other text. -/
theorem styleOf_key (binary : tag ≠ .binary) (nonempty : s ≠ []) (line : isMultiline s = false) :
    styleOf true tag s = styleOf false tag s := by
  simp [styleOf, binary, nonempty, line]

theorem tagOfPlain_ne_binary (s : List Char) : tagOfPlain s ≠ .binary := by
  unfold tagOfPlain
  split_ifs <;> decide

theorem styleOf_eq_plain (kind : tagOfPlain s = tag) (allowed : allowsPlain s = true) :
    styleOf false tag s = .plain := by
  have other : tag ≠ .binary := fun e => tagOfPlain_ne_binary s (kind.trans e)
  simp [styleOf, other, kind, allowed]

theorem styleOf_plain (h : styleOf false tag s = .plain) : tagOfPlain s = tag ∧ allowsPlain s = true := by
  unfold styleOf at h
  split_ifs at h with binary form plain
  simpa using plain

theorem styleOf_single (h : styleOf false tag s = .single) : allowsSingle s = true := by
  unfold styleOf at h
  split_ifs at h with binary form plain single
  simpa using single

theorem styleOf_block (h : styleOf false tag s = .block) : tag = .binary := by
  unfold styleOf at h
  split_ifs at h with binary
  simpa using binary

/-- The empty text is written between quotes, except for null. -/
theorem ne_nil_of_plain (h : styleOf false tag s = .plain) (null : tag ≠ .null) : s ≠ [] := by
  rintro rfl
  exact null (styleOf_plain h).1.symm

theorem isWritten_of_allowsSingle (h : allowsSingle s = true) :
    (∀ x ∈ s, IsWritten x) ∧ hasSpaceAtBreak s = false := by
  simp only [allowsSingle, Bool.not_eq_true', Bool.or_eq_false_iff, List.any_eq_false] at h
  refine ⟨fun x hx => ?_, h.2⟩
  have kept := h.1 x hx
  by_cases newline : x = '\n'
  · exact .inl newline
  · exact .inr (by simpa [isSpecial, newline, IsPrintable] using kept)

end Style

/-! ## Writing -/

/-- Unless a text between double quotes is folded behind column 80 at a space behind an escape, a scalar is written so
that it can be read again. -/
theorem scalar_text {tag : Tag} {s : List Char} {k : Nat} (binary : tag ≠ .binary)
    (empty : tag = .null → s ≠ []) (fold : Bool) (narrow : fold = true → k < Sheet.width ∨ hasEscapedGap s = false)
    (p : Sheet) :
    ∃ u, ScalarText k s (styleOf false tag s == .plain) u ∧
      p.Adds (p.gap ++ u) (p.scalar (styleOf false tag s) fold k s) := by
  cases style : styleOf false tag s with
  | plain =>
    have allowed := (styleOf_plain style).2
    have form := PlainForm.of_allowsPlain allowed
    have nonempty : s ≠ [] := by
      by_cases null : tag = .null
      · exact empty null
      · exact ne_nil_of_plain style null
    obtain ⟨u, text, adds⟩ := plain_text (k := k) form.printable nonempty form.first form.last fold p
    exact ⟨u, .plain allowed nonempty text, adds⟩
  | single =>
    obtain ⟨clean, apart⟩ := isWritten_of_allowsSingle (styleOf_single style)
    obtain ⟨w, text, adds⟩ := single_text k clean apart fold p
    exact ⟨_, .single text, adds⟩
  | double =>
    obtain ⟨w, text, adds⟩ := double_text narrow p
    exact ⟨_, .double text, adds⟩
  | block => exact absurd (styleOf_block style) binary

/-! ## Keys within a line -/

/-- The number of characters that a key takes in front of its colon. -/
def keyWidth (s : List Char) : Nat := (Sheet.blank.scalar (styleOf true .str s) false 0 s).written.length

/-- Without folding a text within a line stays there, wherever it is written. -/
theorem exists_flat {s : List Char} (nonempty : s ≠ []) (line : isMultiline s = false) :
    ∃ u, (∀ x ∈ u, IsPrintable x) ∧ ∀ (k : Nat) (p : Sheet),
      (p.scalar (styleOf false .str s) false k s).written = (p.gap ++ u).reverse ++ p.written := by
  have newline : '\n' ∉ s := fun here => by
    have := List.any_eq_false.1 line _ here
    simp at this
  have single {x : Char} (hx : IsPrintable x) : ∀ c ∈ (if x = '\'' then ['\'', '\''] else [x]), IsPrintable c := by
    split_ifs with quote
    · simp [IsPrintable]
    · exact List.forall_mem_singleton.2 hx
  have quoted (x : Char) (hx : IsPrintable x) {u : List Char} (hu : ∀ c ∈ u, IsPrintable c) :
      ∀ c ∈ x :: (u ++ [x]), IsPrintable c := by
    simp only [List.forall_mem_cons, List.forall_mem_append]
    exact ⟨hx, hu, hx, by simp⟩
  cases style : styleOf false .str s with
  | plain =>
    have form := PlainForm.of_allowsPlain (styleOf_plain style).2
    exact ⟨s, form.printable, fun k p => plain_flat k nonempty p⟩
  | single =>
    refine ⟨_, quoted '\'' (by decide) fun c hc => ?_, fun k p => single_flat k newline p⟩
    obtain ⟨x, hx, hc⟩ := List.mem_flatMap.1 hc
    refine single (((isWritten_of_allowsSingle (styleOf_single style)).1 x hx).resolve_left ?_) c hc
    exact fun e => newline (e ▸ hx)
  | double =>
    refine ⟨_, quoted '"' (by decide) fun c hc => ?_, fun k p => double_flat k s p⟩
    obtain ⟨x, -, hc⟩ := List.mem_flatMap.1 hc
    split_ifs at hc with plain
    · rw [List.mem_singleton.1 hc]
      exact (isPlainInDouble_iff.1 plain).1
    · exact isPrintable_escapeOf x c hc
  | block => exact absurd (styleOf_block style) (by decide)

/-- A short key stays within its line, and takes as many characters as it would by itself. -/
theorem scalar_line {s u : List Char} {k : Nat} {p : Sheet} (nonempty : s ≠ []) (line : isMultiline s = false)
    (adds : p.Adds (p.gap ++ u) (p.scalar (styleOf false .str s) false k s)) :
    (∀ x ∈ u, IsPrintable x) ∧ u.length = keyWidth s := by
  obtain ⟨u', printable, flat⟩ := exists_flat nonempty line
  have same : u = u' := by
    have twice := adds.written.symm.trans (flat k p)
    exact List.append_cancel_left (List.reverse_injective (List.append_cancel_right twice))
  rw [same]
  exact ⟨printable, by rw [keyWidth, styleOf_key (by decide) nonempty line, flat]; simp [Sheet.gap, Sheet.blank]⟩

end ZincModel.Yaml
