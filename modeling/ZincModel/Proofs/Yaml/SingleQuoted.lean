import ZincModel.Proofs.Yaml.Quoted

/-!
# Texts between single quotes

Between single quotes a quote is written twice, a single space can be the end of a line, and the end of a line is
written as an empty line more (`SingleText`). What is read from there is the text again (`SingleText.read`).
-/

namespace ZincModel.Yaml

open Json (IsPrintable)
open List (replicate)

/-- How a text can be written between single quotes, if lines go on in the column `k`; `afterGap` tells whether a
gap stands before. -/
inductive SingleText (k : Nat) : (afterGap : Bool) → List Char → List Char → Prop
  | nil {b : Bool} : SingleText k b [] []
  | char {b : Bool} {x : Char} {s w : List Char} :
      IsPrintable x → x ≠ ' ' → x ≠ '\'' → SingleText k false s w → SingleText k b (x :: s) (x :: w)
  | quote {b : Bool} {s w : List Char} : SingleText k false s w → SingleText k b ('\'' :: s) ('\'' :: '\'' :: w)
  | space {b : Bool} {s w : List Char} : SingleText k true s w → SingleText k b (' ' :: s) (' ' :: w)
  | lines {s w : List Char} (m : Nat) : s.head? ≠ some ' ' → SingleText k true s w →
      SingleText k false (folded '\n' (replicate m '\n') ++ s)
        ('\n' :: (replicate m '\n' ++ (replicate k ' ' ++ w)))

namespace SingleText

variable {k : Nat} {b : Bool} {s w : List Char}

theorem isWritten (h : SingleText k b s w) : ∀ x ∈ w, IsWritten x := by
  induction h with
  | nil => simp
  | char printable _ _ _ ih => exact List.forall_mem_cons.2 ⟨.inr printable, ih⟩
  | quote _ ih => exact List.forall_mem_cons.2 ⟨.inr (by decide), List.forall_mem_cons.2 ⟨.inr (by decide), ih⟩⟩
  | space _ ih => exact List.forall_mem_cons.2 ⟨.inr isPrintable_space, ih⟩
  | lines m _ _ ih =>
    refine List.forall_mem_cons.2 ⟨.inl rfl, fun x hx => ?_⟩
    rcases List.mem_append.1 hx with hx | hx
    · exact .inl (List.eq_of_mem_replicate hx)
    rcases List.mem_append.1 hx with hx | hx
    · exact .inr (isPrintable_replicate k x hx)
    · exact ih x hx

/-- What is read from a text between single quotes is the text again; `c` is a place within it. -/
theorem readsOn (h : SingleText k b s w) (positive : 0 < k) {c : Cursor} {t : List Char}
    (here : c.rest = w ++ '\'' :: t) (last : t.head? ≠ some '\'') (fits : c.Fits) :
    ReadsQuotedOn '\'' c s (c.advance (w.length + 1)) b := by
  induction h generalizing c with
  | nil => exact .of_reads (by rw [here]; rfl) (.close here (.inr ⟨rfl, last⟩)) _
  | @char b x s w printable space quote text ih =>
    rw [List.cons_append] at here
    have gap : isGap x = false := by rw [printable.isGap, beq_eq_false_iff_ne.2 space]
    have inner := ih (c := c.next) (by simp [here]) fits.next
    refine .of_reads (by rw [here]; exact gap) (inner.step [x] (by simp [here]) fun fuel => ?_) _
    exact quotedRun_char fuel here gap (.inr ⟨rfl, quote⟩)
  | @quote b s w text ih =>
    rw [List.cons_append, List.cons_append] at here
    have inner := ih (c := c.advance 2) (by simp [here]) (fits.advance 2)
    have shorter : (c.advance 2).rest.length < c.rest.length := by
      simp only [Cursor.rest_advance, here, List.length_drop, List.length_cons]
      omega
    refine .of_reads (by rw [here]; rfl) (inner.step ['\''] shorter fun fuel => ?_) _
    exact quotedRun_quote fuel here
  | @space b s w text ih =>
    rw [List.cons_append] at here
    exact .space here (ih (c := c.next) (by simp [here]) fits.next) (.inr rfl) fits b
  | @lines s w m first text ih =>
    have here' : c.rest = '\n' :: (replicate m '\n' ++ (replicate k ' ' ++ (w ++ '\'' :: t))) := by
      simpa using here
    have inner := ih (c := c.advance (m + k + 1)) (Cursor.rest_advance_lines here') (fits.advance _)
    rw [← Cursor.advance_add] at inner
    have length : ('\n' :: (replicate m '\n' ++ (replicate k ' ' ++ w))).length + 1 = m + k + 1 + (w.length + 1) := by
      simp
      omega
    rw [length]
    exact .lines here' positive first inner (.inr rfl) fits

/-- A text between single quotes is read again where it has been written. -/
theorem read (h : SingleText k false s w) (positive : 0 < k) {c : Cursor} {t : List Char}
    (here : c.rest = '\'' :: (w ++ '\'' :: t)) (last : t.head? ≠ some '\'') (fits : c.Fits) :
    quotedText '\'' c = .ok (s, c.advance (w.length + 2)) :=
  have inner : ReadsQuoted '\'' c.next s (c.next.advance (w.length + 1)) :=
    h.readsOn positive (by simp [here]) last fits.next
  inner.whole here fits

end SingleText

/-! ## Writing -/

section Writing

variable {k : Nat} {s : List Char} {p : Sheet}

theorem hasSpaceAtBreak_cons {x : Char} (h : hasSpaceAtBreak (x :: s) = false) :
    hasSpaceAtBreak s = false ∧ (x = ' ' → s.head? ≠ some '\n') ∧ (x = '\n' → s.head? ≠ some ' ') := by
  rw [hasSpaceAtBreak.eq_def] at h
  split at h
  · cases h
  · cases h
  · next spaces breaks e =>
    cases e
    refine ⟨h, ?_, ?_⟩
    · rintro rfl e
      obtain ⟨s, rfl⟩ := List.head?_eq_some_iff.1 e
      exact spaces s rfl rfl
    · rintro rfl e
      obtain ⟨s, rfl⟩ := List.head?_eq_some_iff.1 e
      exact breaks s rfl rfl
  · next e => cases e

/-- A row of line ends. -/
theorem putSingle_newlines (fold : Bool) (m : Nat) (first : s.head? ≠ some '\n') (p : Sheet) :
    Sheet.putSingle fold k (some '\n') (replicate (m + 1) '\n' ++ s) p =
      Sheet.putSingle fold k (some '\n') s
        ⟨replicate k ' ' ++ (replicate (m + 1) '\n' ++ p.written), k, true, true⟩ := by
  induction m generalizing p with
  | zero =>
    have head : (s.head? == some '\n') = false := beq_eq_false_iff_ne.2 first
    simp [Sheet.putSingle, head, Sheet.indentTo_newLine]
  | succ m ih =>
    change Sheet.putSingle fold k (some '\n') (replicate (m + 1) '\n' ++ s) p.newLine = _
    rw [ih p.newLine]
    simp [Sheet.newLine, List.replicate_succ']

theorem putSingle_newline (fold : Bool) (m : Nat) (first : s.head? ≠ some '\n') {before : Option Char}
    (differ : before ≠ some '\n') (p : Sheet) :
    Sheet.putSingle fold k before (replicate (m + 1) '\n' ++ s) p =
      Sheet.putSingle fold k (some '\n') s
        ⟨replicate k ' ' ++ (replicate (m + 1) '\n' ++ '\n' :: p.written), k, true, true⟩ := by
  have other : (before == some '\n') = false := beq_eq_false_iff_ne.2 differ
  have line : Sheet.putSingle fold k before (replicate (m + 1) '\n' ++ s) p =
      Sheet.putSingle fold k (some '\n') (replicate (m + 1) '\n' ++ s) p.newLine := by
    simp only [List.replicate_succ, List.cons_append, Sheet.putSingle, other]
    rfl
  exact line.trans (putSingle_newlines fold m first p.newLine)

/-- A text starts with a row of a character, of which it may have none. -/
theorem exists_leading (x : Char) (s : List Char) : ∃ m s', s = replicate m x ++ s' ∧ s'.head? ≠ some x := by
  induction s with
  | nil => exact ⟨0, [], rfl, by simp⟩
  | cons y s ih =>
    by_cases e : y = x
    · obtain ⟨m, s', rfl, other⟩ := ih
      exact ⟨m + 1, s', by simp [e, List.replicate_succ], other⟩
    · exact ⟨0, y :: s, rfl, by simpa using e⟩

/-- A gap stands before what comes next. -/
def afterGap (before : Option Char) : Bool := before == some ' ' || before == some '\n'

/-- The text `s` is still to be written behind the character `before`, on the sheet `p`. -/
structure InSingle (k : Nat) (before : Option Char) (s : List Char) (p : Sheet) : Prop where
  clean : ∀ x ∈ s, IsWritten x
  apart : hasSpaceAtBreak s = false
  space : before = some ' ' → s.head? ≠ some '\n'
  newline : before = some '\n' → s.head? ≠ some '\n' ∧ s.head? ≠ some ' '
  /-- Behind the indentation of a line no line is ended before something else has been written. -/
  margin : p.atMargin = true → k ≤ p.column ∧ (s.head? = some ' ' → k < p.column)

namespace InSingle

variable {before : Option Char} {x : Char}

theorem put (h : InSingle k before (x :: s) p) (other : x ≠ '\n') {u : List Char} (nonempty : u ≠ []) :
    InSingle k (some x) s (p.put u) where
  clean := (List.forall_mem_cons.1 h.clean).2
  apart := (hasSpaceAtBreak_cons h.apart).1
  space e := (hasSpaceAtBreak_cons h.apart).2.1 (by simpa using e)
  newline e := absurd (by simpa using e) other
  margin e := by
    have bound := (h.margin e).1
    have positive := List.length_pos_iff.2 nonempty
    simp only [Sheet.put]
    omega

theorem indentTo_eq (h : InSingle k before (' ' :: s) p) :
    p.indentTo k = ⟨replicate k ' ' ++ '\n' :: p.written, k, true, true⟩ := by
  apply Sheet.indentTo_eq
  cases e : p.atMargin with
  | false => exact .inl rfl
  | true => exact .inr ((h.margin e).2 rfl)

theorem fold (h : InSingle k before (' ' :: s) p) (single : s.head? ≠ some ' ') :
    InSingle k (some ' ') s (p.indentTo k) where
  clean := (List.forall_mem_cons.1 h.clean).2
  apart := (hasSpaceAtBreak_cons h.apart).1
  space _ := (hasSpaceAtBreak_cons h.apart).2.1 rfl
  newline e := by cases e
  margin _ := by rw [h.indentTo_eq]; simp [single]

theorem lines {m : Nat} (h : InSingle k before (replicate (m + 1) '\n' ++ s) p) (other : s.head? ≠ some '\n')
    (written : List Char) : InSingle k (some '\n') s ⟨written, k, true, true⟩ := by
  have apart : ∀ m, hasSpaceAtBreak (replicate (m + 1) '\n' ++ s) = false →
      hasSpaceAtBreak s = false ∧ s.head? ≠ some ' ' := by
    intro m h
    induction m with
    | zero => exact ⟨(hasSpaceAtBreak_cons h).1, (hasSpaceAtBreak_cons h).2.2 rfl⟩
    | succ m ih => exact ih (hasSpaceAtBreak_cons h).1
  obtain ⟨apart, first⟩ := apart m h.apart
  exact {
    clean := fun x hx => h.clean x (List.mem_append_right _ hx)
    apart := apart
    space := by simp
    newline := fun _ => ⟨other, first⟩
    margin := fun _ => ⟨Nat.le_refl k, fun e => absurd e first⟩ }

end InSingle

/-- What is written of a text is one of the ways to write it. -/
theorem putSingle_text (fold : Bool) {before : Option Char} (h : InSingle k before s p) :
    ∃ w, SingleText k (afterGap before) s w ∧
      (Sheet.putSingle fold k before s p).written = w.reverse ++ p.written := by
  induction n : s.length using Nat.strongRecOn generalizing s before p with
  | _ n ih =>
    subst n
    cases s with
    | nil => exact ⟨[], .nil, rfl⟩
    | cons x s =>
      have step {before' : Option Char} {s' : List Char} {q : Sheet} (later : InSingle k before' s' q)
          (shorter : s'.length ≤ s.length) := ih s'.length (Nat.lt_succ_of_le shorter) later rfl
      by_cases isNewline : x = '\n'
      · subst isNewline
        obtain ⟨m, s, rfl, other⟩ := exists_leading '\n' s
        have differ : before ≠ some '\n' := fun e => (h.newline e).1 rfl
        have noGap : afterGap before = false := by
          simp only [afterGap, Bool.or_eq_false_iff, beq_eq_false_iff_ne]
          exact ⟨fun e => h.space e rfl, differ⟩
        have later := h.lines (m := m) other (replicate k ' ' ++ (replicate (m + 1) '\n' ++ '\n' :: p.written))
        obtain ⟨w, text, written⟩ := step later (by simp)
        have folds : folded '\n' (replicate (m + 1) '\n') = '\n' :: replicate m '\n' := rfl
        refine ⟨'\n' :: (replicate (m + 1) '\n' ++ (replicate k ' ' ++ w)), ?_, ?_⟩
        · rw [noGap, ← List.cons_append, ← folds]
          exact .lines (m + 1) (later.newline rfl).2 text
        · have line := putSingle_newline (k := k) fold m other differ p
          exact (congrArg Sheet.written line).trans (written.trans (by simp))
      by_cases isSpace : x = ' '
      · subst isSpace
        by_cases folds : (Sheet.isSingleSpace before s && before.isSome && !s.isEmpty && p.isFull && fold) = true
        · have parts := folds
          simp only [Bool.and_eq_true, Sheet.isSingleSpace, bne_iff_ne] at parts
          have first : s.head? ≠ some ' ' := parts.1.1.1.1.2
          have noGap : afterGap before = false := by
            simp only [afterGap, Bool.or_eq_false_iff, beq_eq_false_iff_ne]
            exact ⟨parts.1.1.1.1.1, fun e => (h.newline e).2 rfl⟩
          obtain ⟨w, text, written⟩ := step (h.fold first) (Nat.le_refl _)
          refine ⟨'\n' :: (replicate 0 '\n' ++ (replicate k ' ' ++ w)), by rw [noGap]; exact .lines 0 first text, ?_⟩
          simp only [Sheet.putSingle, folds, beq_self_eq_true, if_true]
          rw [written, h.indentTo_eq]
          simp
        · obtain ⟨w, text, written⟩ := step (h.put isNewline (u := [' ']) (by simp)) (Nat.le_refl _)
          refine ⟨' ' :: w, .space text, ?_⟩
          simp only [Sheet.putSingle, folds, beq_self_eq_true, if_true, if_false, Bool.false_eq_true]
          rw [written]
          simp [Sheet.put]
      have here := (h.clean x (by simp)).resolve_left isNewline
      by_cases isQuote : x = '\''
      · subst isQuote
        obtain ⟨w, text, written⟩ := step (h.put isNewline (u := ['\'', '\'']) (by simp)) (Nat.le_refl _)
        refine ⟨'\'' :: '\'' :: w, .quote text, ?_⟩
        rw [Sheet.putSingle]
        exact written.trans (by simp [Sheet.put])
      · obtain ⟨w, text, written⟩ := step (h.put isNewline (u := [x]) (by simp)) (Nat.le_refl _)
        have noGap : afterGap (some x) = false := by simp [afterGap, isNewline, isSpace]
        refine ⟨x :: w, .char here isSpace isQuote (noGap ▸ text), ?_⟩
        simp only [Sheet.putSingle, isSpace, isNewline, isQuote, beq_iff_eq, if_false]
        rw [written]
        simp [Sheet.put]

/-- A text between single quotes stands behind a blank and can be read from where it has been written. -/
theorem single_text (k : Nat) (clean : ∀ x ∈ s, IsWritten x) (apart : hasSpaceAtBreak s = false) (fold : Bool)
    (p : Sheet) :
    ∃ w, SingleText k false s w ∧ p.Adds (p.gap ++ '\'' :: (w ++ ['\''])) (p.single fold k s) := by
  have begun := p.adds_mark ['\'']
  have inside : InSingle k none s (p.mark false ['\'']) :=
    ⟨clean, apart, by simp, by simp, fun e => by rw [begun.atMargin] at e; cases e⟩
  obtain ⟨w, text, written⟩ := putSingle_text fold inside
  refine ⟨w, text, ?_, rfl, rfl⟩
  simp [Sheet.single, Sheet.close, Sheet.put, written, begun.written]

/-- Without folding a text within a line stays there. -/
theorem single_flat (k : Nat) (line : '\n' ∉ s) (p : Sheet) :
    (p.single false k s).written =
      (p.gap ++ '\'' :: (s.flatMap (fun c => if c = '\'' then ['\'', '\''] else [c]) ++ ['\''])).reverse ++
        p.written := by
  have flat (before : Option Char) (p : Sheet) : (Sheet.putSingle false k before s p).written =
      (s.flatMap fun c => if c = '\'' then ['\'', '\''] else [c]).reverse ++ p.written := by
    induction s generalizing before p with
    | nil => rfl
    | cons x s ih =>
      obtain ⟨here, line⟩ := List.ne_and_not_mem_of_not_mem_cons line
      simp only [Sheet.putSingle, Bool.and_false, Bool.false_eq_true, if_false, beq_iff_eq, here.symm]
      rw [ih line]
      by_cases isQuote : x = '\''
      · simp [isQuote, Sheet.put]
      · simp [isQuote, Sheet.put]
  simp [Sheet.single, Sheet.close, Sheet.put, flat, (p.adds_mark ['\'']).written]

end Writing

end ZincModel.Yaml
