import ZincModel.Proofs.Yaml.Sheet

/-!
# Plain texts

A plain text is written as it is, except that a single space can be the end of a line (`PlainText`). What is
read from there is the text again (`PlainText.read`), as long as no colon in front of a blank and no number sign
behind one stands in it. It is read up to a colon that ends a key or up to the end of a line behind which a place
further to the left follows.
-/

namespace ZincModel.Yaml

open Json (IsPrintable)
open List (replicate)

/-- How a text can be written plainly, if lines go on in the column `k`; `afterSpace` tells whether a space stands
before. -/
inductive PlainText (k : Nat) : (afterSpace : Bool) → List Char → List Char → Prop
  | nil : PlainText k false [] []
  | char {b : Bool} {x : Char} {s w : List Char} :
      IsPrintable x → x ≠ ' ' → PlainText k false s w → PlainText k b (x :: s) (x :: w)
  | space {b : Bool} {s w : List Char} : PlainText k true s w → PlainText k b (' ' :: s) (' ' :: w)
  | fold {s w : List Char} :
      s.head? ≠ some ' ' → PlainText k true s w → PlainText k false (' ' :: s) ('\n' :: (replicate k ' ' ++ w))

namespace PlainText

variable {k : Nat} {b : Bool} {s w : List Char}

theorem isWritten (h : PlainText k b s w) : ∀ x ∈ w, IsWritten x := by
  induction h with
  | nil => simp
  | char printable _ _ ih => exact List.forall_mem_cons.2 ⟨.inr printable, ih⟩
  | space _ ih => exact List.forall_mem_cons.2 ⟨.inr isPrintable_space, ih⟩
  | fold _ _ ih =>
    refine List.forall_mem_cons.2 ⟨.inl rfl, fun x hx => ?_⟩
    rcases List.mem_append.1 hx with hx | hx
    · exact .inr (isPrintable_replicate k x hx)
    · exact ih x hx

/-- The first character is written as it is. -/
theorem head (h : PlainText k b s w) (first : s.head? ≠ some ' ') : w.head? = s.head? := by
  cases h with
  | nil => rfl
  | char => rfl
  | space => simp at first
  | fold => simp at first

theorem behindSpace (h : PlainText k false s w) (nonempty : s ≠ []) (first : s.head? ≠ some ' ') :
    PlainText k true s w := by
  cases h with
  | nil => exact absurd rfl nonempty
  | char printable other text => exact .char printable other text
  | space => simp at first
  | fold => simp at first

end PlainText

/-! ## Writing -/

/-- Whatever lines it is folded into, the characters of a plain text are written in one of the ways that it can
be written in. -/
theorem putPlain_text {k : Nat} {s : List Char} (printable : ∀ x ∈ s, IsPrintable x) (last : s.getLast? ≠ some ' ')
    (fold : Bool) (before : Option Char) (nonempty : before = some ' ' → s ≠ []) {p : Sheet}
    (blank : p.afterBlank = false) (margin : p.atMargin = false) :
    ∃ w, PlainText k (before == some ' ') s w ∧ p.Adds w (Sheet.putPlain fold k before s p) := by
  induction s generalizing before p with
  | nil =>
    have differ : (before == some ' ') = false := by
      rw [beq_eq_false_iff_ne]
      exact fun e => nonempty e rfl
    rw [differ]
    exact ⟨[], .nil, rfl, blank, margin⟩
  | cons x s ih =>
    obtain ⟨here, inner⟩ := List.forall_mem_cons.1 printable
    have last' : s.getLast? ≠ some ' ' := fun e => last (by rw [List.getLast?_cons, e]; rfl)
    have nonempty' : some x = some ' ' → s ≠ [] := by
      rintro e rfl
      cases e
      exact last rfl
    by_cases folds : (x == ' ' && Sheet.isSingleSpace before s && p.isFull && fold) = true
    · simp only [Bool.and_eq_true, beq_iff_eq] at folds
      obtain ⟨⟨⟨rfl, single⟩, full⟩, rfl⟩ := folds
      have single' := single
      simp only [Sheet.isSingleSpace, Bool.and_eq_true, bne_iff_ne] at single
      obtain ⟨w, text, adds⟩ := ih inner last' _ nonempty'
        (p := { p.indentTo k with afterBlank := false, atMargin := false }) rfl rfl
      refine ⟨'\n' :: (replicate k ' ' ++ w), ?_, ?_⟩
      · rw [beq_eq_false_iff_ne.2 single.1]
        exact .fold single.2 text
      · simp only [Sheet.putPlain, single', full, beq_self_eq_true, Bool.and_self, if_true]
        rw [← List.cons_append]
        exact adds.trans (by rw [Sheet.indentTo_eq (.inl margin)]; simp)
    · obtain ⟨w, text, adds⟩ := ih inner last' _ nonempty' (p := p.put [x]) blank margin
      refine ⟨x :: w, ?_, ?_⟩
      · by_cases e : x = ' '
        · subst e
          exact .space text
        · rw [beq_eq_false_iff_ne.2 (by simpa using e)] at text
          exact .char here e text
      · rw [Sheet.putPlain, if_neg folds]
        exact Sheet.Adds.trans (u := [x]) rfl adds

/-- A plain text stands behind a blank and can be read from where it has been written. -/
theorem plain_text {k : Nat} {s : List Char} (printable : ∀ x ∈ s, IsPrintable x) (nonempty : s ≠ [])
    (first : s.head? ≠ some ' ') (last : s.getLast? ≠ some ' ') (fold : Bool) (p : Sheet) :
    ∃ w, PlainText k true s w ∧ p.Adds (p.gap ++ w) (p.plain fold k s) := by
  have begun : (if p.afterBlank then p else p.put [' ']).written = p.gap.reverse ++ p.written := by
    cases h : p.afterBlank <;> simp [Sheet.gap, h, Sheet.put]
  obtain ⟨w, text, adds⟩ := putPlain_text (k := k) printable last fold none (by simp)
    (p := { (if p.afterBlank then p else p.put [' ']) with afterBlank := false, atMargin := false }) rfl rfl
  refine ⟨w, text.behindSpace nonempty first, ?_⟩
  rw [Sheet.plain, if_neg (by simpa using nonempty)]
  exact Sheet.Adds.trans
    (q := { (if p.afterBlank then p else p.put [' ']) with afterBlank := false, atMargin := false }) begun adds

/-- Without folding the text is written as it is. -/
theorem plain_flat (k : Nat) {s : List Char} (nonempty : s ≠ []) (p : Sheet) :
    (p.plain false k s).written = (p.gap ++ s).reverse ++ p.written := by
  have flat (before : Option Char) (s : List Char) (p : Sheet) :
      (Sheet.putPlain false k before s p).written = s.reverse ++ p.written := by
    induction s generalizing before p with
    | nil => rfl
    | cons x s ih =>
      simp only [Sheet.putPlain, Bool.and_false, Bool.false_eq_true, if_false]
      rw [ih]
      simp [Sheet.put]
  rw [Sheet.plain, if_neg (by simpa using nonempty), flat]
  cases h : p.afterBlank <;> simp [Sheet.gap, h, Sheet.put]

/-! ## Reading -/

/-- The text of a plain scalar behind the part `before` of it, from inside of a run on. -/
def plainOn (least : Int) (fuel : Nat) (before : List Char) (c : Cursor) : List Char × PlainGap :=
  let run := plainRun false c.rest
  let next := plainGap (c.advance run.length)
  if next.text.isEmpty || atComment next.after.rest || (next.after.column : Int) < least then (before ++ run, next)
  else
    let (more, last) := plainFrom false least fuel next
    (before ++ run ++ more, last)

/-- A run of a plain text starts here. -/
def startsRun (s : List Char) : Prop := atComment s = false ∧ plainRun false s ≠ []

/-- The text of a plain scalar ends here. -/
structure PlainEnd (least : Int) (c : Cursor) : Prop where
  run : plainRun false c.rest = []
  gap : (plainGap c).text = [] ∨ ((plainGap c).after.column : Int) < least

section Reading

variable {least : Int} {c : Cursor} {fuel : Nat}

theorem plainFrom_succ {gap : PlainGap} (starts : startsRun gap.after.rest) :
    plainFrom false least (fuel + 1) gap = plainOn least fuel gap.text gap.after := by
  simp only [plainFrom, plainOn, starts.1, Bool.false_eq_true, if_false, List.isEmpty_iff, starts.2, Bool.not_false,
    Bool.true_and]

theorem plainOn_end (h : PlainEnd least c) (before : List Char) :
    plainOn least fuel before c = (before, plainGap c) := by
  have stops : ((plainGap c).text.isEmpty || atComment (plainGap c).after.rest ||
      decide (((plainGap c).after.column : Int) < least)) = true := by
    rcases h.gap with e | e <;> simp [e]
  simp only [plainOn, h.run, List.length_nil, Cursor.advance_zero, stops, if_true, List.append_nil]

/-- The character goes on with the run of a plain text that it stands in. -/
def runsOn (x : Char) (rest : List Char) : Prop := isGap x = false ∧ (x = ':' → atGap rest = false)

theorem plainRun_cons {x : Char} {t : List Char} (h : runsOn x t) :
    plainRun false (x :: t) = x :: plainRun false t := by
  have colon : (x == ':' && endsPlain false t) = false := by
    by_cases e : x = ':'
    · simp [e, endsPlain, h.2 e]
    · simp [e]
  simp [plainRun, h.1, colon]

theorem plainOn_cons {x : Char} {t : List Char} (h : c.rest = x :: t) (runs : runsOn x t) (before : List Char) :
    plainOn least fuel before c = plainOn least fuel (before ++ [x]) c.next := by
  have rest : c.next.rest = t := by simp [h]
  simp only [plainOn, h, plainRun_cons runs, rest, List.length_cons, Cursor.advance_succ]
  simp only [List.append_assoc, List.singleton_append]

theorem startsRun.atGap {s : List Char} (h : startsRun s) : atGap s = false := by
  obtain ⟨-, some⟩ := h
  cases s with
  | nil => exact absurd rfl some
  | cons x s =>
    by_contra gap
    rw [Bool.not_eq_false, Yaml.atGap] at gap
    exact some (by simp [plainRun, gap])

theorem startsRun_cons {x : Char} {t : List Char} (runs : runsOn x t) (comment : x ≠ '#') : startsRun (x :: t) :=
  ⟨by simpa [atComment] using comment, by simp [plainRun_cons runs]⟩

/-- Nothing is left, or something comes next that is neither a blank nor a comment. -/
structure Begins (t : List Char) : Prop where
  gap : ∀ x, t.head? = some x → isGap x = false
  comment : atComment t = false

theorem Begins.ne_space {t : List Char} (h : Begins t) : t.head? ≠ some ' ' := fun e => Bool.noConfusion (h.gap _ e)

theorem Begins.isBreak {t : List Char} (h : Begins t) {x : Char} (e : t.head? = some x) : isBreak x = false :=
  (Bool.or_eq_false_iff.1 (h.gap x e)).2

/-- What can stand at the start of a line, behind `d` spaces. -/
structure Opens (d : Nat) (t : List Char) : Prop extends Begins t where
  mark : d = 0 → atDocumentMark t = false

theorem Opens.atDocumentMark {d : Nat} {t : List Char} (h : Opens d t) :
    atDocumentMark (replicate d ' ' ++ t) = false := by
  cases d with
  | zero => exact h.mark rfl
  | succ d => rfl

theorem plainGap_spaces {n : Nat} {t : List Char} (h : c.rest = replicate n ' ' ++ t) (ht : atGap t = false) :
    plainGap c = ⟨replicate n ' ', false, c.advance n⟩ := by
  have first : ∀ x, t.head? = some x → isGap x = false := by
    intro x e
    cases t with
    | nil => cases e
    | cons y t => cases e; exact ht
  simp only [isGap, Bool.or_eq_false_iff, beq_eq_false_iff_ne] at first
  have spaces := Cursor.takeWhile_eq (p := (· == ' ')) h (fun x hx => by simp [List.eq_of_mem_replicate hx])
    (fun x hx => by simpa using (first x hx).1.1)
  have line : (c.advance n).lineBreak? = none :=
    Cursor.lineBreak?_eq_none fun x hx => (first x (by simpa [h] using hx)).2
  rw [List.length_replicate] at spaces
  simp only [plainGap, spaces, line]

theorem plainGap_line {d : Nat} {t : List Char} (h : c.rest = '\n' :: (replicate d ' ' ++ t)) (opens : Opens d t) :
    plainGap c = ⟨[' '], true, c.advance (d + 1)⟩ := by
  have spaces := Cursor.takeWhile_eq (u := []) (p := (· == ' ')) h (by simp) (by simp)
  have line := Cursor.lineBreak?_newline h
  have rest : c.next.rest = replicate d ' ' ++ t := by simp [h]
  have inner : c.next.skipSpaces = c.next.advance d := Cursor.skipSpaces_eq rest opens.ne_space
  have after : (c.next.advance d).rest = t := by rw [Cursor.rest_advance, rest, List.drop_left' (by simp)]
  have stays : (c.next.advance d).lineBreak? = none :=
    Cursor.lineBreak?_eq_none fun x hx => opens.isBreak (after ▸ hx)
  simp only [plainGap, spaces, List.length_nil, Cursor.advance_zero, line, rest, opens.atDocumentMark,
    Cursor.bound, plainBreaks, inner, stays, Bool.false_eq_true, if_false]
  rfl

/-- The reading of a plain text goes on behind a gap in it. -/
theorem plainOn_gap {gap : PlainGap} {s : List Char} {last : PlainGap} (run : plainRun false c.rest = [])
    (next : plainGap c = gap) (text : gap.text ≠ []) (starts : startsRun gap.after.rest)
    (column : least ≤ gap.after.column) (read : plainOn least fuel gap.text gap.after = (s, last))
    (before : List Char) : plainOn least (fuel + 1) before c = (before ++ s, last) := by
  have goes : (gap.text.isEmpty || atComment gap.after.rest || decide ((gap.after.column : Int) < least)) = false := by
    simp [text, starts.1, column]
  simp only [plainOn, run, List.length_nil, Cursor.advance_zero, next, goes, Bool.false_eq_true, if_false,
    plainFrom_succ starts, List.append_nil]
  rw [← plainOn, read]

/-- Behind a space the reading of a plain text goes on with the next run. -/
structure Resumes (least : Int) (fuel : Nat) (c : Cursor) (s : List Char) (last : PlainGap) (m : Nat)
    (s' : List Char) : Prop where
  text : s = replicate m ' ' ++ s'
  rest : c.rest = replicate m ' ' ++ (c.advance m).rest
  starts : startsRun (c.advance m).rest
  read : ∀ before, plainOn least fuel before (c.advance m) = (before ++ s', last)

end Reading

theorem atGap_of_colon {k : Nat} {s w : List Char} (h : PlainText k false s w) (other : atGap s = false)
    (r : List Char) : atGap (w ++ r) = false := by
  cases h with
  | nil => cases other
  | char => exact other
  | space => cases other
  | fold => cases other

/-- From a place within a plain text on the text `s` is read, up to the gap `last`; spaces at the place belong to
the gap that they stand in. -/
def ReadsOn (least : Int) (fuel : Nat) (c : Cursor) (s : List Char) (last : PlainGap) : Bool → Prop
  | false => ∀ before, plainOn least fuel before c = (before ++ s, last)
  | true => ∃ m s', Resumes least fuel c s last m s'

section Steps

variable {least : Int} {fuel : Nat} {c : Cursor} {s t : List Char} {last : PlainGap}

/-- A character of a run, whatever stands in front of it. -/
theorem ReadsOn.char {b : Bool} {x : Char} (here : c.rest = x :: t) (runs : runsOn x t)
    (comment : b = true → x ≠ '#') (inner : ReadsOn least fuel c.next s last false) :
    ReadsOn least fuel c (x :: s) last b := by
  have read (before : List Char) : plainOn least fuel before c = (before ++ x :: s, last) := by
    rw [plainOn_cons here runs, inner, List.append_assoc]
    rfl
  cases b with
  | false => exact read
  | true =>
    refine ⟨0, x :: s, rfl, rfl, ?_, read⟩
    rw [Cursor.advance_zero, here]
    exact startsRun_cons runs (comment rfl)

/-- A space in front of a place where the reading goes on belongs to the same gap. -/
theorem ReadsOn.space (here : c.rest = ' ' :: t) (inner : ReadsOn least fuel c.next s last true) :
    ∃ m s', Resumes least fuel c (' ' :: s) last (m + 1) s' := by
  obtain ⟨m, s', rfl, rest, starts, read⟩ := inner
  rw [← Cursor.advance_succ] at rest starts read
  refine ⟨m, s', rfl, ?_, starts, read⟩
  rw [List.replicate_succ, List.cons_append, ← rest, here]
  simp [here]

/-- A space behind a run starts a gap. -/
theorem ReadsOn.gap (here : c.rest = ' ' :: t) (inner : ReadsOn least fuel c.next s last true)
    (column : least ≤ c.column + 1) : ReadsOn least (fuel + 1) c (' ' :: s) last false := by
  obtain ⟨m, s', text, rest, starts, read⟩ := inner.space here
  have run : plainRun false c.rest = [] := by rw [here]; rfl
  have column' : least ≤ (c.advance (m + 1)).column := by
    rw [Cursor.advance_spaces rest]
    push_cast
    omega
  rw [text]
  exact plainOn_gap run (plainGap_spaces rest starts.atGap) (by simp) starts column' (read _)

/-- The end of a line behind a run stands for a space, if the next line starts with a run. -/
theorem ReadsOn.line {d : Nat} (positive : 0 < d) (hd : least ≤ d) (here : c.rest = '\n' :: (replicate d ' ' ++ t))
    (inner : ReadsOn least fuel (c.advance (d + 1)) s last true) (first : s.head? ≠ some ' ') :
    ReadsOn least (fuel + 1) c (' ' :: s) last false := by
  have moved := Cursor.advance_line here
  obtain ⟨m, s', rfl, -, starts, read⟩ := inner
  obtain rfl : m = 0 := by
    cases m with
    | zero => rfl
    | succ m => exact absurd rfl first
  rw [Cursor.advance_zero] at starts
  have starts' : startsRun t := by simpa only [moved] using starts
  have opens : Opens d t := by
    refine ⟨⟨fun x e => ?_, starts'.1⟩, fun e => absurd e (Nat.ne_of_gt positive)⟩
    have gap := starts'.atGap
    cases t with
    | nil => cases e
    | cons y t =>
      cases e
      exact gap
  have run : plainRun false c.rest = [] := by rw [here]; rfl
  exact plainOn_gap run (plainGap_line here opens) (by simp) starts (by rw [moved]; exact hd) (read _)

end Steps

/-- What is read from a plain text is the text again; `c` is a place within it. -/
theorem PlainText.plainOn_eq {k : Nat} {b : Bool} {s w : List Char} (h : PlainText k b s w) {least : Int}
    (positive : 0 < k) (hk : least ≤ k) {c : Cursor} {r : List Char} {fuel : Nat} (here : c.rest = w ++ r)
    (column : least ≤ c.column + 1) (unmarked : hasMark b s = false) (ends : PlainEnd least (c.advance w.length))
    (enough : w.length ≤ fuel) :
    ReadsOn least fuel c s (plainGap (c.advance w.length)) b := by
  induction h generalizing c fuel with
  | nil =>
    intro before
    simpa using plainOn_end ends before
  | @char b x s w printable other text ih =>
    rw [List.cons_append] at here
    simp only [hasMark, Bool.or_eq_false_iff, Bool.and_eq_false_imp, beq_iff_eq] at unmarked
    obtain ⟨⟨colon, comment⟩, unmarked⟩ := unmarked
    rw [printable.isGap, beq_eq_false_iff_ne.2 other] at unmarked
    have runs : runsOn x (w ++ r) :=
      ⟨by rw [printable.isGap, beq_eq_false_iff_ne.2 other], fun e => atGap_of_colon text (colon e) r⟩
    have column' : least ≤ c.next.column + 1 := by
      rw [Cursor.next_printable here printable]
      push_cast
      omega
    have inner := ih (c := c.next) (by simp [here]) column' unmarked ends (Nat.le_of_succ_le enough)
    refine .char here runs ?_ inner
    rintro rfl e
    exact Bool.noConfusion (comment e)
  | @space b s w text ih =>
    rw [List.cons_append] at here
    have column' : least ≤ c.next.column + 1 := by
      rw [Cursor.next_printable here isPrintable_space]
      push_cast
      omega
    have inner {fuel : Nat} (enough : w.length ≤ fuel) :=
      ih (c := c.next) (by simp [here]) column' unmarked ends enough
    cases b with
    | true =>
      obtain ⟨m, s', resumes⟩ := (inner (Nat.le_of_succ_le enough)).space here
      exact ⟨m + 1, s', resumes⟩
    | false =>
      obtain ⟨fuel, rfl⟩ : ∃ n, fuel = n + 1 := ⟨fuel - 1, by simp at enough; omega⟩
      exact (inner (Nat.le_of_succ_le_succ enough)).gap here column
  | @fold s w first text ih =>
    obtain ⟨fuel, rfl⟩ : ∃ n, fuel = n + 1 := ⟨fuel - 1, by simp at enough; omega⟩
    rw [List.cons_append, List.append_assoc] at here
    have moved := Cursor.advance_line here
    have total : ('\n' :: (replicate k ' ' ++ w)).length = k + 1 + w.length := by simp; omega
    rw [total, Cursor.advance_add] at ends ⊢
    rw [total] at enough
    have inner := ih (c := c.advance (k + 1)) (by rw [moved]) (by rw [moved]; simp only; omega) unmarked ends
      (by omega : w.length ≤ fuel)
    exact .line positive hk here inner first

/-- The text of a plain scalar is read again where it has been written. -/
theorem PlainText.read {k : Nat} {s w : List Char} (h : PlainText k true s w) (first : s.head? ≠ some ' ')
    {least : Int} (positive : 0 < k) (hk : least ≤ k) {c : Cursor} {r : List Char} (here : c.rest = w ++ r)
    (column : least ≤ c.column + 1) (unmarked : hasMark true s = false) (ends : PlainEnd least (c.advance w.length))
    (enough : w.length ≤ c.size) : plainText false least c = (s, plainGap (c.advance w.length)) := by
  obtain ⟨m, s', rfl, -, starts, read⟩ := h.plainOn_eq positive hk here column unmarked ends enough
  obtain rfl : m = 0 := by
    cases m with
    | zero => rfl
    | succ m => exact absurd rfl first
  have begins : startsRun (PlainGap.mk [] false c).after.rest := starts
  exact (plainFrom_succ begins).trans (read [])

/-! ## Ends of plain texts -/

section Ends

variable {least : Int} {c : Cursor} {t : List Char}

/-- A plain key ends in front of its colon. -/
theorem plainEnd_colon (least : Int) (h : c.rest = ':' :: t) (gap : atGap t = true) :
    PlainEnd least c ∧ plainGap c = ⟨[], false, c⟩ := by
  have spaces := plainGap_spaces (c := c) (n := 0) (t := ':' :: t) h rfl
  refine ⟨⟨?_, .inl (by rw [spaces]; rfl)⟩, spaces⟩
  simp [h, plainRun, isGap, isBreak, endsPlain, gap]

/-- A plain text ends with its line, if less than a least column is reached in the next one. -/
theorem plainEnd_line (least : Int) {d : Nat} (h : c.rest = '\n' :: (replicate d ' ' ++ t)) (opens : Opens d t)
    (below : (d : Int) < least) : PlainEnd least c ∧ plainGap c = ⟨[' '], true, c.advance (d + 1)⟩ := by
  have gap := plainGap_line h opens
  have column : (c.advance (d + 1)).column = d := by rw [Cursor.advance_line h]
  exact ⟨⟨by rw [h]; rfl, .inr (by rw [gap, column]; exact below)⟩, gap⟩

end Ends

end ZincModel.Yaml
