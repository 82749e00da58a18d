import ZincModel.Text.Blank
import ZincModel.Text.Line

/-!
# Lines, newlines and blanks

How far the first line of a text goes (`head?_lines`), how a text that is put together of parts is cut into lines
(`lines_append`, `lines_complete_append`), what is lost when its lines are joined again (`unifyNewlines_eq_join`), and
what is left of it when blanks are cut off its ends (`strip_blanks_append`, `stripEnd_append`).
-/

namespace ZincModel.Text

/-! ## Lines -/

/-- The character and what follows it are not the two halves of one line boundary. -/
def IsApart (c : Char) (s : List Char) : Prop := c = '\r' → s.head? ≠ some '\n'

/-- A text is cut at boundaries of two characters and of one. -/
@[elab_as_elim]
theorem lines_induction {P : List Char → Prop} (nil : P []) (crlf : ∀ s, P s → P ('\r' :: '\n' :: s))
    (boundary : ∀ c s, isLineBoundary c = true → IsApart c s → P s → P (c :: s))
    (inner : ∀ c s, isLineBoundary c = false → P s → P (c :: s)) (s : List Char) : P s := by
  have apart {c : Char} {s : List Char} (h : ∀ rest, c = '\r' → s = '\n' :: rest → False) : IsApart c s := by
    intro hc hs
    cases s with
    | nil => cases hs
    | cons d s => cases hs; exact h s hc rfl
  fun_induction lines s with
  | case1 => exact nil
  | case2 rest ih => exact crlf rest ih
  | case3 c rest h hc ih => exact boundary c rest hc (apart h) ih
  | case4 c rest h hc _ ih => exact inner c rest (by simpa using hc) ih
  | case5 c rest h hc _ _ _ ih => exact inner c rest (by simpa using hc) ih

theorem lines_crlf (s : List Char) : lines ('\r' :: '\n' :: s) = [] :: lines s := rfl

theorem lines_boundary {c : Char} {s : List Char} (h : isLineBoundary c = true) (apart : IsApart c s) :
    lines (c :: s) = [] :: lines s := by
  rw [lines.eq_def]
  split
  · next e => cases e
  · next e => cases e; exact absurd rfl (apart rfl)
  · next e => cases e; rw [if_pos h]

/-- A boundary ends a line, or it is the first half of one that does. -/
theorem lines_boundary_cons {c : Char} (h : isLineBoundary c = true) (s : List Char) :
    lines (c :: s) = [] :: lines s ∨ lines (c :: s) = lines s := by
  by_cases crlf : c = '\r' ∧ s.head? = some '\n'
  · obtain ⟨rfl, line⟩ := crlf
    obtain ⟨s, rfl⟩ := List.head?_eq_some_iff.1 line
    refine Or.inr ?_
    rw [lines_crlf, lines_boundary rfl (by rintro ⟨⟩)]
  · exact Or.inl (lines_boundary h fun e line => crlf ⟨e, line⟩)

theorem lines_newline (s : List Char) : lines ('\n' :: s) = [] :: lines s :=
  lines_boundary rfl (by rintro ⟨⟩)

/-- A text in front of the first line. -/
def prepend (w : List Char) : List (List Char) → List (List Char)
  | [] => [w]
  | l :: more => (w ++ l) :: more

theorem lines_cons {c : Char} (h : isLineBoundary c = false) (s : List Char) :
    lines (c :: s) = prepend [c] (lines s) := by
  rw [lines.eq_def]
  split
  · next e => cases e
  · next e => cases e; cases h
  · next e =>
    cases e
    simp only [h, Bool.false_eq_true, if_false]
    cases lines s <;> rfl

/-- A text without line boundaries stands in front of the first line. -/
theorem lines_append {w : List Char} (hw : w ≠ []) (h : ∀ c ∈ w, isLineBoundary c = false) (s : List Char) :
    lines (w ++ s) = prepend w (lines s) := by
  induction w with
  | nil => exact absurd rfl hw
  | cons c w ih =>
    obtain ⟨first, others⟩ := List.forall_mem_cons.1 h
    rw [List.cons_append, lines_cons first]
    by_cases e : w = []
    · rw [e, List.nil_append]
    · rw [ih e others]
      cases lines s <;> rfl

theorem lines_eq_nil_iff {s : List Char} : lines s = [] ↔ s = [] := by
  refine ⟨fun h => ?_, fun h => h ▸ rfl⟩
  induction s using lines_induction with
  | nil => rfl
  | crlf s _ => rw [lines_crlf] at h; cases h
  | boundary c s hc apart _ => rw [lines_boundary hc apart] at h; cases h
  | inner c s hc _ =>
    rw [lines_cons hc] at h
    cases e : lines s <;> rw [e] at h <;> cases h

/-- The first line goes on to the first boundary. -/
theorem head?_lines {s : List Char} (h : s ≠ []) : (lines s).head? = some (s.takeWhile (!isLineBoundary ·)) := by
  induction s using lines_induction with
  | nil => exact absurd rfl h
  | crlf s _ => rfl
  | boundary c s hc apart _ =>
    rw [lines_boundary hc apart, List.takeWhile_cons_of_neg (by simp [hc])]
    rfl
  | inner c s hc ih =>
    rw [lines_cons hc, List.takeWhile_cons_of_pos (by simp [hc])]
    by_cases e : s = []
    · rw [e]
      rfl
    · obtain ⟨more, first⟩ := List.head?_eq_some_iff.1 (ih e)
      rw [first]
      rfl

/-- What stands in front of the first boundary is the first line, and there is none in an empty text. -/
theorem headD_lines (s : List Char) : ((lines s).head?).getD [] = s.takeWhile (!isLineBoundary ·) := by
  by_cases e : s = []
  · rw [e]
    rfl
  · rw [head?_lines e, Option.getD_some]

/-- Behind a newline the lines go on, whatever they are; where one was complete, or there was none, an empty line comes
before. -/
theorem lines_append_newline (s : List Char) :
    ∃ last, (last = [] ∨ last = [[]]) ∧ ∀ x, lines (s ++ '\n' :: x) = lines s ++ (last ++ lines x) := by
  induction s using lines_induction with
  | nil => exact ⟨[[]], Or.inr rfl, lines_newline⟩
  | crlf s ih =>
    obtain ⟨last, hlast, ih⟩ := ih
    refine ⟨last, hlast, fun x => ?_⟩
    rw [List.cons_append, List.cons_append, lines_crlf, lines_crlf, ih, List.cons_append]
  | boundary c s hc apart ih =>
    obtain ⟨last, hlast, ih⟩ := ih
    rw [lines_boundary hc apart]
    by_cases half : c = '\r' ∧ s = []
    · obtain ⟨rfl, rfl⟩ := half
      exact ⟨[], Or.inl rfl, lines_crlf⟩
    · have apart' (x : List Char) : IsApart c (s ++ '\n' :: x) := by
        intro e
        cases s with
        | nil => exact absurd ⟨e, rfl⟩ half
        | cons d s => exact apart e
      refine ⟨last, hlast, fun x => ?_⟩
      rw [List.cons_append, lines_boundary hc (apart' x), ih, List.cons_append]
  | inner c s hc ih =>
    obtain ⟨last, hlast, ih⟩ := ih
    rw [lines_cons hc]
    cases e : lines s with
    | nil =>
      cases lines_eq_nil_iff.1 e
      refine ⟨[], Or.inl rfl, fun x => ?_⟩
      rw [List.cons_append, lines_cons hc, List.nil_append, lines_newline]
      rfl
    | cons l ls =>
      refine ⟨last, hlast, fun x => ?_⟩
      rw [List.cons_append, lines_cons hc, ih, e]
      rfl

/-- The text is empty, or a newline ends its last line. -/
def IsComplete (p : List Char) : Prop := p = [] ∨ ∃ q, p = q ++ ['\n']

/-- Complete lines are cut by themselves. -/
theorem lines_complete_append {p : List Char} (h : IsComplete p) (x : List Char) :
    lines (p ++ x) = lines p ++ lines x := by
  rcases h with rfl | ⟨q, rfl⟩
  · rfl
  · obtain ⟨last, -, behind⟩ := lines_append_newline q
    have alone : lines (q ++ ['\n']) = lines q ++ last := by rw [behind, lines_eq_nil_iff.2 rfl, List.append_nil]
    rw [alone, List.append_assoc, List.append_assoc]
    exact behind x

/-! ## Joining lines -/

theorem join_nil_cons {ls : List (List Char)} (h : ls ≠ []) : join ['\n'] ([] :: ls) = '\n' :: join ['\n'] ls := by
  cases ls with
  | nil => exact absurd rfl h
  | cons l ls => rfl

theorem join_prepend (w : List Char) (ls : List (List Char)) :
    join ['\n'] (prepend w ls) = w ++ join ['\n'] ls := by
  match ls with
  | [] => simp [prepend, join]
  | [l] => rfl
  | l :: l' :: ls => simp [prepend, join]

/-- An empty line at the end adds a newline, unless it is the only line. -/
theorem join_append_nil {ls : List (List Char)} (h : ls ≠ []) :
    join ['\n'] (ls ++ [[]]) = join ['\n'] ls ++ ['\n'] := by
  induction ls with
  | nil => exact absurd rfl h
  | cons l ls ih =>
    cases ls with
    | nil => simp [join]
    | cons l' ls =>
      have ih := ih (by simp)
      simp only [List.cons_append, join] at ih ⊢
      rw [ih]
      simp

theorem unifyNewlines_cons {c : Char} {s : List Char} (apart : IsApart c s) :
    unifyNewlines (c :: s) = (if c = '\r' then '\n' else c) :: unifyNewlines s := by
  rw [unifyNewlines]
  · simp
  · rintro rest hc rfl
    exact apart hc rfl

/-- The lines of a text, joined again, are the text with its newlines unified, but for a newline at the end. -/
theorem unifyNewlines_eq_join {s : List Char} (h : ∀ c ∈ s, isLineBoundary c = true → c = '\n' ∨ c = '\r') :
    ∃ b, unifyNewlines s = join ['\n'] (lines s) ++ b ∧ (b = [] ∨ b = ['\n']) := by
  have newline {rest : List Char} {b : List Char} (e : unifyNewlines rest = join ['\n'] (lines rest) ++ b)
      (hb : b = [] ∨ b = ['\n']) :
      ∃ b, '\n' :: unifyNewlines rest = join ['\n'] ([] :: lines rest) ++ b ∧ (b = [] ∨ b = ['\n']) := by
    by_cases empty : lines rest = []
    · cases lines_eq_nil_iff.1 empty
      exact ⟨['\n'], rfl, Or.inr rfl⟩
    · exact ⟨b, by rw [join_nil_cons empty, e]; rfl, hb⟩
  induction s using lines_induction with
  | nil => exact ⟨[], rfl, Or.inl rfl⟩
  | crlf s ih =>
    obtain ⟨b, e, hb⟩ := ih fun c hc => h c (by simp [hc])
    rw [unifyNewlines, lines_crlf]
    exact newline e hb
  | boundary c s hc apart ih =>
    obtain ⟨b, e, hb⟩ := ih fun c hc => h c (List.mem_cons_of_mem _ hc)
    have unified : (if c = '\r' then '\n' else c) = '\n' := by
      rcases h c List.mem_cons_self hc with rfl | rfl <;> rfl
    rw [unifyNewlines_cons apart, lines_boundary hc apart, unified]
    exact newline e hb
  | inner c s hc ih =>
    obtain ⟨b, e, hb⟩ := ih fun c hc => h c (List.mem_cons_of_mem _ hc)
    have other : c ≠ '\r' := by rintro rfl; cases hc
    refine ⟨b, ?_, hb⟩
    rw [unifyNewlines_cons fun e => absurd e other, if_neg other, lines_cons hc, join_prepend, e]
    rfl

/-- In front of a character that is no line feed newlines are unified on their own. -/
theorem unifyNewlines_append {c : Char} (hc : c ≠ '\n') (s rest : List Char) :
    unifyNewlines (s ++ c :: rest) = unifyNewlines s ++ unifyNewlines (c :: rest) := by
  induction s using lines_induction with
  | nil => rfl
  | crlf s ih => rw [List.cons_append, List.cons_append, unifyNewlines, unifyNewlines, ih]; rfl
  | boundary d s _ apart ih =>
    have apart' : IsApart d (s ++ c :: rest) := by
      intro e
      cases s with
      | nil => simpa using hc
      | cons => exact apart e
    rw [List.cons_append, unifyNewlines_cons apart, unifyNewlines_cons apart', ih]
    rfl
  | inner d s hd ih =>
    have other : d ≠ '\r' := by rintro rfl; cases hd
    rw [List.cons_append, unifyNewlines_cons fun e => absurd e other, unifyNewlines_cons fun e => absurd e other, ih]
    rfl

/-- Unified newlines do not change where a text is cut. -/
theorem lines_unifyNewlines (s : List Char) : lines (unifyNewlines s) = lines s := by
  induction s using lines_induction with
  | nil => rfl
  | crlf s ih => rw [unifyNewlines, lines_newline, lines_crlf, ih]
  | boundary c s hc apart ih =>
    rw [unifyNewlines_cons apart, lines_boundary hc apart]
    split
    · rw [lines_newline, ih]
    · next other => rw [lines_boundary hc fun e => absurd e other, ih]
  | inner c s hc ih =>
    have other : c ≠ '\r' := by rintro rfl; cases hc
    rw [unifyNewlines_cons fun e => absurd e other, if_neg other, lines_cons hc, lines_cons hc, ih]

/-! ## Blanks -/

theorem stripEnd_cons {c : Char} (h : isBlank c = false) (s : List Char) : stripEnd (c :: s) = c :: stripEnd s := by
  rw [stripEnd]
  split
  · next e => rw [e, h]; rfl
  · rfl

theorem stripEnd_blanks {s : List Char} (h : ∀ c ∈ s, isBlank c = true) : stripEnd s = [] := by
  induction s with
  | nil => rfl
  | cons c s ih =>
    obtain ⟨first, others⟩ := List.forall_mem_cons.1 h
    rw [stripEnd, ih others]
    simp [first]

/-- Blanks behind a character are cut off. -/
theorem stripEnd_append {c : Char} (h : isBlank c = false) (s : List Char) {b : List Char}
    (hb : ∀ c ∈ b, isBlank c = true) : stripEnd (s ++ c :: b) = s ++ [c] := by
  induction s with
  | nil => rw [List.nil_append, stripEnd_cons h, stripEnd_blanks hb]; rfl
  | cons d s ih =>
    rw [List.cons_append, stripEnd, ih]
    cases e : s ++ [c] with
    | nil => simp at e
    | cons => rw [List.cons_append, e]

theorem strip_cons_blank {c : Char} (h : isBlank c = true) (s : List Char) : strip (c :: s) = strip s := by
  simp [strip, h]

theorem strip_cons {c : Char} (h : isBlank c = false) (s : List Char) : strip (c :: s) = c :: stripEnd s := by
  simp [strip, h, stripEnd_cons]

theorem strip_blanks_append {a : List Char} (h : ∀ c ∈ a, isBlank c = true) (s : List Char) :
    strip (a ++ s) = strip s := by
  induction a with
  | nil => rfl
  | cons c a ih =>
    obtain ⟨first, others⟩ := List.forall_mem_cons.1 h
    rw [List.cons_append, strip_cons_blank first, ih others]

/-- Blanks at the end do not count. -/
theorem strip_append_blanks (s : List Char) {b : List Char} (hb : ∀ c ∈ b, isBlank c = true) :
    strip (s ++ b) = strip s := by
  have stripEnd_eq (s : List Char) : stripEnd (s ++ b) = stripEnd s := by
    induction s with
    | nil => exact stripEnd_blanks hb
    | cons c s ih => rw [List.cons_append, stripEnd, stripEnd, ih]
  induction s with
  | nil => simpa using strip_blanks_append hb []
  | cons c s ih =>
    cases h : isBlank c with
    | true => rw [List.cons_append, strip_cons_blank h, strip_cons_blank h, ih]
    | false => rw [List.cons_append, strip_cons h, strip_cons h, stripEnd_eq]

end ZincModel.Text
