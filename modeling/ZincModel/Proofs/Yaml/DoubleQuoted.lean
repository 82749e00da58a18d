import ZincModel.Proofs.Yaml.Quoted

/-!
# Texts between double quotes

Between double quotes every character but printable ASCII is escaped, and a line can end with a backslash
anywhere (`DoubleText`). What is read from there is the text again (`DoubleText.read`).

A line that ends behind an escape and in front of a space is ended once more if it is full at once, which it is if
lines go on behind column 80; what is written then is not the text. So for the writer lines go on before that
column, or no space stands behind an escape (`putDouble_text`).
-/

namespace ZincModel.Yaml

open Json (IsPrintable)
open List (replicate)
open Sheet (isPlainInDouble escapeOf letter?)
open Text

/-- How a text can be written between double quotes, if lines go on in the column `k`. -/
inductive DoubleText (k : Nat) : List Char → List Char → Prop
  | nil : DoubleText k [] []
  | char {x : Char} {s w : List Char} :
      isPlainInDouble x = true → x ≠ ' ' → DoubleText k s w → DoubleText k (x :: s) (x :: w)
  | space {s w : List Char} : DoubleText k s w → DoubleText k (' ' :: s) (' ' :: w)
  | special {x : Char} {s w : List Char} :
      isPlainInDouble x = false → DoubleText k s w → DoubleText k (x :: s) (escapeOf x ++ w)
  | escapedSpace {s w : List Char} : DoubleText k s w → DoubleText k (' ' :: s) ('\\' :: ' ' :: w)
  | fold {s w : List Char} :
      w.head? ≠ some ' ' → DoubleText k s w → DoubleText k s ('\\' :: '\n' :: (replicate k ' ' ++ w))

/-! ## Characters and escapes -/

theorem isPlainInDouble_iff {x : Char} : isPlainInDouble x = true ↔ IsPrintable x ∧ x ≠ '"' ∧ x ≠ '\\' := by
  simp [isPlainInDouble, IsPrintable, and_assoc]

theorem isPrintable_escapeOf (x : Char) : ∀ c ∈ escapeOf x, IsPrintable c := by
  have number (l : Char) (hl : IsPrintable l) (width : Nat) :
      ∀ c ∈ '\\' :: l :: hexDigits true width x.toNat, IsPrintable c :=
    List.forall_mem_cons.2 ⟨by decide, List.forall_mem_cons.2 ⟨hl, Json.isPrintable_hexDigits true width _⟩⟩
  unfold escapeOf
  cases e : letter? x with
  | some l =>
    unfold letter? at e
    split at e <;> cases e <;> exact Json.isPrintable_of_all (by decide)
  | none =>
    dsimp only
    split_ifs
    · exact number 'x' (by decide) 2
    · exact number 'u' (by decide) 4
    · exact number 'U' (by decide) 8

theorem unescape?_letter {x l : Char} (h : letter? x = some l) : unescape? l = some x := by
  unfold letter? at h
  split at h <;> cases h <;> rfl

section Escape

variable {c : Cursor} {t : List Char}

theorem length_hexDigits (capital : Bool) (width n : Nat) : (hexDigits capital width n).length = width := by
  induction width generalizing n with
  | zero => rfl
  | succ width ih => simp [hexDigits, ih]

theorem escape_hexadecimal {l x : Char} {width : Nat} (here : c.rest = l :: (hexDigits true width x.toNat ++ t))
    (plain : unescape? l = none) (letter : escapeWidth? l = some width) (small : x.toNat < 16 ^ width) :
    escape c = .ok ([x], c.advance (width + 1)) := by
  have rest : c.next.rest = hexDigits true width x.toNat ++ t := by simp [here]
  have digits : c.next.rest.take width = hexDigits true width x.toNat := by
    rw [rest, List.take_left' (length_hexDigits _ _ _)]
  have number : c.next.hexNumber width = .ok (x.toNat, c.next.advance width) := by
    unfold Cursor.hexNumber
    simp only [digits, Json.hexNumber?_hexDigits, length_hexDigits, Nat.mod_eq_of_lt small, if_true]
  have valid : charOfNumber x.toNat = .ok x := by
    have bound := Json.toNat_valid x
    rw [charOfNumber, if_neg (by omega), if_neg (by omega), if_neg (by omega), Char.ofNat_toNat]
  simp only [escape, here, plain, letter, number, Except.ok_bind, valid]
  rfl

theorem escape_escapeOf {x : Char} (here : c.rest = escapeOf x ++ t) :
    escape c.next = .ok ([x], c.advance (escapeOf x).length) := by
  have bound := Json.toNat_valid x
  unfold escapeOf at here ⊢
  cases e : letter? x with
  | some l =>
    simp only [e] at here
    have rest : c.next.rest = l :: t := by simp [here]
    simp only [escape, rest, unescape?_letter e]
    rfl
  | none =>
    have number {l : Char} {width : Nat} (here : c.rest = '\\' :: l :: (hexDigits true width x.toNat ++ t))
        (plain : unescape? l = none) (letter : escapeWidth? l = some width) (small : x.toNat < 16 ^ width) :
        escape c.next = .ok ([x], c.advance ('\\' :: l :: hexDigits true width x.toNat).length) := by
      rw [List.length_cons, List.length_cons, length_hexDigits, Cursor.advance_succ]
      exact escape_hexadecimal (t := t) (by simp [here]) plain letter small
    simp only [e] at here
    split_ifs at here ⊢ with narrow middle
    · exact number here rfl rfl (by omega)
    · exact number here rfl rfl (by omega)
    · exact number here rfl rfl (by omega)

theorem escape_space (here : c.rest = '\\' :: ' ' :: t) : escape c.next = .ok ([' '], c.advance 2) := by
  have rest : c.next.rest = ' ' :: t := by simp [here]
  have letter : unescape? ' ' = some ' ' := rfl
  simp only [escape, rest, letter]
  rfl

/-- An escaped end of a line counts as nothing. -/
theorem escape_line {k : Nat} (here : c.rest = '\\' :: '\n' :: (replicate k ' ' ++ t)) (positive : 0 < k)
    (ht : atGap t = false) : escape c.next = .ok ([], c.advance (k + 2)) := by
  have rest : c.next.rest = '\n' :: (replicate k ' ' ++ t) := by simp [here]
  have letter : unescape? '\n' = none := rfl
  have width : escapeWidth? '\n' = none := rfl
  have breaks := quotedBreaks_eq (c := c.next.next) (m := 0) (by simp [here]) positive ht
    (Nat.succ_pos c.next.next.size)
  rw [Nat.zero_add] at breaks
  simp only [escape, rest, letter, width, Cursor.lineBreak?_newline rest]
  exact breaks

end Escape

theorem exists_escapeOf (x : Char) : ∃ u, escapeOf x = '\\' :: u := by
  unfold escapeOf
  cases letter? x with
  | some l => exact ⟨_, rfl⟩
  | none =>
    dsimp only
    split_ifs <;> exact ⟨_, rfl⟩

namespace DoubleText

variable {k : Nat} {s w : List Char}

theorem isWritten (h : DoubleText k s w) : ∀ x ∈ w, IsWritten x := by
  induction h with
  | nil => simp
  | char plain _ _ ih => exact List.forall_mem_cons.2 ⟨.inr (isPlainInDouble_iff.1 plain).1, ih⟩
  | space _ ih => exact List.forall_mem_cons.2 ⟨.inr isPrintable_space, ih⟩
  | special _ _ ih => exact List.forall_mem_append.2 ⟨fun x hx => .inr (isPrintable_escapeOf _ x hx), ih⟩
  | escapedSpace _ ih =>
    exact List.forall_mem_cons.2 ⟨.inr (by decide), List.forall_mem_cons.2 ⟨.inr isPrintable_space, ih⟩⟩
  | fold _ _ ih =>
    refine List.forall_mem_cons.2 ⟨.inr (by decide), List.forall_mem_cons.2 ⟨.inl rfl, ?_⟩⟩
    exact List.forall_mem_append.2 ⟨fun x hx => .inr (isPrintable_replicate k x hx), ih⟩

/-- Something else than a space is no gap. -/
theorem atGap (h : DoubleText k s w) (first : w.head? ≠ some ' ') (t : List Char) : atGap (w ++ '"' :: t) = false := by
  cases h with
  | nil => rfl
  | char plain other =>
    exact ((isPlainInDouble_iff.1 plain).1.isGap).trans (beq_eq_false_iff_ne.2 other)
  | space => exact absurd rfl first
  | @special x =>
    obtain ⟨u, e⟩ := exists_escapeOf x
    rw [e]
    rfl
  | escapedSpace => rfl
  | fold => rfl

/-- What is read from a text between double quotes is the text again; `c` is a place within it. -/
theorem readsOn (h : DoubleText k s w) (positive : 0 < k) {c : Cursor} {t : List Char}
    (here : c.rest = w ++ '"' :: t) (fits : c.Fits) : ReadsQuotedOn '"' c s (c.advance (w.length + 1)) true := by
  -- an escape, a backslash with `u` behind it, stands for `text`
  have escaped {text u s w : List Char} {c : Cursor} (here : c.rest = '\\' :: (u ++ (w ++ '"' :: t)))
      (fits : c.Fits) (read : escape c.next = .ok (text, c.advance (u.length + 1)))
      (ih : ∀ {c : Cursor}, c.rest = w ++ '"' :: t → c.Fits →
        ReadsQuotedOn '"' c s (c.advance (w.length + 1)) true) :
      ReadsQuotedOn '"' c (text ++ s) (c.advance (('\\' :: (u ++ w)).length + 1)) true := by
    have length : ('\\' :: (u ++ w)).length + 1 = u.length + 1 + (w.length + 1) := by simp; omega
    have shorter : (c.advance (u.length + 1)).rest.length < c.rest.length := by
      simp only [Cursor.rest_advance, here, List.length_drop, List.length_cons]
      omega
    have later := ih (c := c.advance (u.length + 1)) (by simp [here]) (fits.advance _)
    have inner := later.reads (.inl rfl) (fits.advance _)
    rw [length, Cursor.advance_add]
    exact .of_reads (by rw [here]; rfl) (inner.step _ shorter fun fuel => quotedRun_escape fuel here read) _
  induction h generalizing c with
  | nil => exact .of_reads (by rw [here]; rfl) (.close here (.inl rfl)) _
  | @char x s w plain space text ih =>
    rw [List.cons_append] at here
    obtain ⟨printable, quote, backslash⟩ := isPlainInDouble_iff.1 plain
    have gap : isGap x = false := by rw [printable.isGap, beq_eq_false_iff_ne.2 space]
    have inner := (ih (c := c.next) (by simp [here]) fits.next).reads (.inl rfl) fits.next
    refine .of_reads (by rw [here]; exact gap) (inner.step [x] (by simp [here]) fun fuel => ?_) _
    exact quotedRun_char fuel here gap (.inl ⟨rfl, quote, backslash⟩)
  | @space s w text ih =>
    rw [List.cons_append] at here
    exact .space here (ih (c := c.next) (by simp [here]) fits.next) (.inl rfl) fits _
  | @special x s w special text ih =>
    obtain ⟨u, e⟩ := exists_escapeOf x
    rw [List.append_assoc] at here
    have read := escape_escapeOf here
    rw [e] at here read ⊢
    exact escaped here fits read ih
  | @escapedSpace s w text ih =>
    exact escaped (u := [' ']) here fits (escape_space here) ih
  | @fold s w first text ih =>
    have here' : c.rest = '\\' :: '\n' :: (replicate k ' ' ++ (w ++ '"' :: t)) := by simpa using here
    have read := escape_line here' positive (text.atGap first t)
    exact escaped (u := '\n' :: replicate k ' ') here' fits (by simpa using read) ih

/-- A text between double quotes is read again where it has been written. -/
theorem read (h : DoubleText k s w) (positive : 0 < k) {c : Cursor} {t : List Char}
    (here : c.rest = '"' :: (w ++ '"' :: t)) (fits : c.Fits) :
    quotedText '"' c = .ok (s, c.advance (w.length + 2)) :=
  have later : ReadsQuotedOn '"' c.next s (c.next.advance (w.length + 1)) true :=
    h.readsOn positive (t := t) (by simp [here]) fits.next
  (later.reads (.inl rfl) fits.next).whole here fits

/-- Only a space is written as a space. -/
theorem head (h : DoubleText k s w) (first : s.head? ≠ some ' ') : w.head? ≠ some ' ' := by
  cases h with
  | nil => simp
  | char => exact first
  | space => exact absurd rfl first
  | @special x =>
    obtain ⟨u, e⟩ := exists_escapeOf x
    simp [e]
  | escapedSpace => exact absurd rfl first
  | fold => simp

end DoubleText

/-! ## Writing -/

/-- A space stands behind a character that is escaped. -/
def hasEscapedGap : List Char → Bool
  | x :: rest => (!isPlainInDouble x && rest.head? == some ' ') || hasEscapedGap rest
  | [] => false

section Writing

variable {k : Nat} {s : List Char} {p : Sheet}

theorem breakDouble_eq (margin : p.atMargin = false) (k : Nat) (rest : List Char) :
    (p.breakDouble k rest).written =
        (if rest.head? = some ' ' then ['\\'] else []) ++ (replicate k ' ' ++ '\n' :: '\\' :: p.written) ∧
      (p.breakDouble k rest).column = (if rest.head? = some ' ' then k + 1 else k) ∧
      (p.breakDouble k rest).atMargin = false := by
  have line : (p.put ['\\']).indentTo k = ⟨replicate k ' ' ++ '\n' :: '\\' :: p.written, k, true, true⟩ :=
    Sheet.indentTo_eq (.inl margin)
  by_cases space : rest.head? = some ' '
  · simp only [Sheet.breakDouble, line]
    simp [space, Sheet.put]
  · simp only [Sheet.breakDouble, line]
    simp [space]

/-- Writing goes on with the text `s'` on the sheet `q` behind `u`, which is one of the ways to write what stands in
front of `s'`. -/
structure GoesOn (k : Nat) (fold isFirst afterEscape : Bool) (s : List Char) (p : Sheet) (afterEscape' : Bool)
    (s' : List Char) (q : Sheet) (u : List Char) : Prop where
  next : Sheet.putDouble fold k isFirst afterEscape s p = Sheet.putDouble fold k false afterEscape' s' q
  margin : q.atMargin = false
  written : q.written = u.reverse ++ p.written
  text : ∀ w, DoubleText k s' w → DoubleText k s (u ++ w)

/-- A character that stands for itself, perhaps behind the end of a line. -/
theorem goesOn_plain {fold : Bool} (isFirst afterEscape : Bool) {x : Char} (plain : isPlainInDouble x = true)
    (margin : p.atMargin = false) : ∃ q u, GoesOn k fold isFirst afterEscape (x :: s) p false s q u := by
  by_cases breaks : (!isFirst && !s.isEmpty && (x == ' ' || afterEscape) && p.isFull && fold) = true
  · obtain ⟨line, -, margin'⟩ := breakDouble_eq margin k (x :: s)
    refine ⟨(p.breakDouble k (x :: s)).put [x],
      '\\' :: '\n' :: (replicate k ' ' ++ ((if x = ' ' then ['\\'] else []) ++ [x])), ?_, margin', ?_, fun w text => ?_⟩
    · simp only [Sheet.putDouble, plain, breaks, if_true]
    · have last (q : Sheet) : (q.put [x]).written = x :: q.written := rfl
      rw [last, line]
      by_cases space : x = ' '
      · simp [space]
      · simp [space]
    · by_cases space : x = ' '
      · subst space
        simpa using DoubleText.fold (k := k) (by simp) (.escapedSpace text)
      · simpa [space] using DoubleText.fold (k := k) (by simpa using space) (.char plain space text)
  · refine ⟨p.put [x], [x], ?_, margin, rfl, fun w text => ?_⟩
    · simp only [Sheet.putDouble, plain, breaks, if_true, if_false, Bool.false_eq_true]
    · by_cases space : x = ' '
      · subst space
        exact .space text
      · exact .char plain space text

/-- An escape, perhaps in front of the end of a line. A space behind that is written at once: as the line has only been
begun, it is not ended in front of the space again. -/
theorem goesOn_special {fold : Bool} (isFirst afterEscape : Bool) {x : Char} (special : isPlainInDouble x = false)
    (narrow : fold = true → k < Sheet.width ∨ s.head? ≠ some ' ') (margin : p.atMargin = false) :
    (∃ q u, GoesOn k fold isFirst afterEscape (x :: s) p true s q u) ∨
      ∃ r q u, s = ' ' :: r ∧ GoesOn k fold isFirst afterEscape (x :: s) p false r q u := by
  by_cases breaks : (!isFirst && !s.isEmpty && Sheet.width + 1 < (p.put (escapeOf x)).column && fold) = true
  · obtain ⟨line, column, margin'⟩ := breakDouble_eq (p := p.put (escapeOf x)) margin k s
    by_cases space : s.head? = some ' '
    · obtain ⟨r, rfl⟩ := List.head?_eq_some_iff.1 space
      have near : k < Sheet.width := (narrow (Bool.and_eq_true_iff.1 breaks).2).resolve_right (not_not_intro space)
      have room : ((p.put (escapeOf x)).breakDouble k (' ' :: r)).isFull = false := by
        rw [if_pos space] at column
        rw [Sheet.isFull, column, decide_eq_false_iff_not]
        omega
      refine .inr ⟨r, ((p.put (escapeOf x)).breakDouble k (' ' :: r)).put [' '],
        escapeOf x ++ '\\' :: '\n' :: (replicate k ' ' ++ ['\\', ' ']), rfl, ?_, margin', ?_, fun w text => ?_⟩
      · have blank : isPlainInDouble ' ' = true := rfl
        simp only [Sheet.putDouble, special, breaks, blank, room, Bool.and_false, Bool.false_and, if_true, if_false,
          Bool.false_eq_true]
      · have last (q : Sheet) : (q.put [' ']).written = ' ' :: q.written := rfl
        rw [last, line]
        simp [Sheet.put]
      · simpa using DoubleText.special special (.fold (k := k) (by simp) (.escapedSpace text))
    · refine .inl ⟨(p.put (escapeOf x)).breakDouble k s, escapeOf x ++ '\\' :: '\n' :: replicate k ' ', ?_, margin', ?_,
        fun w text => ?_⟩
      · simp only [Sheet.putDouble, special, breaks, if_true, if_false, Bool.false_eq_true]
      · rw [line]
        simp [space, Sheet.put]
      · simpa using DoubleText.special special (.fold (text.head space) text)
  · refine .inl ⟨p.put (escapeOf x), escapeOf x, ?_, margin, rfl, fun w text => .special special text⟩
    simp only [Sheet.putDouble, special, breaks, if_false, Bool.false_eq_true]

/-- What is written of a text is one of the ways to write it, unless lines are full as soon as they are begun. -/
theorem putDouble_text (isFirst afterEscape : Bool) {fold : Bool}
    (narrow : fold = true → k < Sheet.width ∨ hasEscapedGap s = false) (margin : p.atMargin = false) :
    ∃ w, DoubleText k s w ∧
      (Sheet.putDouble fold k isFirst afterEscape s p).written = w.reverse ++ p.written := by
  induction n : s.length using Nat.strongRecOn generalizing s p isFirst afterEscape with
  | _ n ih =>
    subst n
    have step {afterEscape' : Bool} {s' u : List Char} {q : Sheet}
        (goes : GoesOn k fold isFirst afterEscape s p afterEscape' s' q u) (shorter : s'.length < s.length)
        (narrow' : fold = true → k < Sheet.width ∨ hasEscapedGap s' = false) :
        ∃ w, DoubleText k s w ∧
          (Sheet.putDouble fold k isFirst afterEscape s p).written = w.reverse ++ p.written := by
      obtain ⟨w, text, written⟩ := ih s'.length shorter false afterEscape' narrow' goes.margin rfl
      refine ⟨u ++ w, goes.text w text, ?_⟩
      rw [goes.next, written, goes.written, List.reverse_append, List.append_assoc]
    cases s with
    | nil => exact ⟨[], .nil, rfl⟩
    | cons x s =>
      have behind : fold = true → k < Sheet.width ∨ hasEscapedGap s = false :=
        fun folds => (narrow folds).imp_right fun e => (Bool.or_eq_false_iff.1 e).2
      by_cases plain : isPlainInDouble x = true
      · obtain ⟨q, u, goes⟩ : ∃ q u, GoesOn k fold isFirst afterEscape (x :: s) p false s q u :=
          goesOn_plain isFirst afterEscape plain margin
        exact step goes (Nat.lt_succ_self _) behind
      · have special : isPlainInDouble x = false := by simpa using plain
        have apart : fold = true → k < Sheet.width ∨ s.head? ≠ some ' ' := by
          refine fun folds => (narrow folds).imp_right fun e => ?_
          simpa [special] using (Bool.or_eq_false_iff.1 e).1
        rcases goesOn_special isFirst afterEscape special apart margin with ⟨q, u, goes⟩ | ⟨r, q, u, rfl, goes⟩
        · exact step goes (Nat.lt_succ_self _) behind
        · refine step goes (by simp only [List.length_cons]; omega) ?_
          exact fun folds => (behind folds).imp_right fun e => (Bool.or_eq_false_iff.1 e).2

/-- A text between double quotes stands behind a blank and can be read from where it has been written. -/
theorem double_text {fold : Bool} (narrow : fold = true → k < Sheet.width ∨ hasEscapedGap s = false) (p : Sheet) :
    ∃ w, DoubleText k s w ∧ p.Adds (p.gap ++ '"' :: (w ++ ['"'])) (p.double fold k s) := by
  have begun := p.adds_mark ['"']
  obtain ⟨w, text, written⟩ := putDouble_text (s := s) true false narrow begun.atMargin
  refine ⟨w, text, ?_, rfl, rfl⟩
  simp [Sheet.double, Sheet.close, Sheet.put, written, begun.written]

/-- Without folding every text stays within the line. -/
theorem double_flat (k : Nat) (s : List Char) (p : Sheet) :
    (p.double false k s).written =
      (p.gap ++ '"' :: (s.flatMap (fun c => if isPlainInDouble c then [c] else escapeOf c) ++ ['"'])).reverse ++
        p.written := by
  have flat (isFirst afterEscape : Bool) (p : Sheet) :
      (Sheet.putDouble false k isFirst afterEscape s p).written =
        (s.flatMap fun c => if isPlainInDouble c then [c] else escapeOf c).reverse ++ p.written := by
    induction s generalizing isFirst afterEscape p with
    | nil => rfl
    | cons x s ih =>
      simp only [Sheet.putDouble, Bool.and_false, Bool.false_eq_true, if_false]
      by_cases plain : isPlainInDouble x = true
      · simp [plain, ih, Sheet.put]
      · simp [plain, ih, Sheet.put]
  simp [Sheet.double, Sheet.close, Sheet.put, flat, (p.adds_mark ['"']).written]

end Writing

end ZincModel.Yaml
