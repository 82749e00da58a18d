import ZincModel.Proofs.Yaml.DoubleQuoted
import ZincModel.Proofs.Yaml.Layout
import ZincModel.Proofs.Yaml.SingleQuoted

/-!
# Single pieces

What `Layout.addNext` does with each kind of piece that is written: with the marks of items and entries, which may
open a block, and with the texts, anchors, aliases and empty brackets that stand behind them.
-/

namespace ZincModel.Yaml

open Json (IsPrintable)
open List (replicate)

/-- The blocks once a block at a column has been opened, unless it is the innermost one. -/
def opened (column : Nat) : List Int → List Int
  | i :: outer => if i < column then column :: i :: outer else i :: outer
  | [] => []

/-- The token that opens it. -/
def opening (t : Token) (column : Nat) : List Int → List Token
  | i :: _ => if i < column then [t] else []
  | [] => []

namespace Layout

variable {l a : Layout} {x : Char} {s t u v : List Char} {column : Nat} {tokens : List Token} {i : Int}
  {outer blocks : List Int}

/-- No document starts or ends here, and there is no directive. -/
def Inside (column : Nat) (s : List Char) : Prop := column = 0 → s.head? ≠ some '%' ∧ atDocumentMark s = false

theorem Inside.of_pos {column : Nat} (h : 0 < column) (s : List Char) : Inside column s := fun e => by omega

theorem At.keys (h : l.At s column tokens blocks) (allowed : Bool) (possible : List PossibleKey) :
    ({ l with keyAllowed := allowed, possible := possible } : Layout).At s column tokens blocks :=
  ⟨h.rest, h.column, h.tokens, h.blocks, h.count, h.depth, h.beyond, h.fits⟩

/-! ## Marks -/

theorem insert_at {before : List Token} (h : l.At s column (before ++ tokens) (i :: outer)) (t : Token) :
    (l.insert tokens.length t).At s column (before ++ t :: tokens) (i :: outer) := by
  have behind : l.count - tokens.length = before.length := by rw [h.count, h.tokens]; simp
  refine ⟨h.rest, h.column, ?_, h.blocks, ?_, h.depth, h.beyond, h.fits⟩
  · simp [insert, behind, h.tokens]
  · simp [insert, h.count, h.tokens]
    omega

/-- A block is opened in front of the tokens `before`. -/
theorem openBlock_at (before : List Token) (h : l.At s column (before ++ tokens) (i :: outer)) (column' : Nat)
    (t : Token) :
    (l.openBlock column' tokens.length t).At s column (before ++ (opening t column' (i :: outer) ++ tokens))
        (opened column' (i :: outer)) ∧
      (l.openBlock column' tokens.length t).keyAllowed = l.keyAllowed ∧
      (l.openBlock column' tokens.length t).possible = l.possible ∧
      (l.openBlock column' tokens.length t).cursor = l.cursor := by
  obtain ⟨rfl, outside⟩ := List.cons.inj h.blocks
  by_cases deeper : l.indent < column'
  · have inserted := insert_at h t
    rw [opening, opened, openBlock, if_pos deeper, if_pos deeper, if_pos deeper]
    refine ⟨?_, rfl, rfl, rfl⟩
    exact ⟨inserted.rest, inserted.column, inserted.tokens, by rw [outside], inserted.count, inserted.depth,
      inserted.beyond, inserted.fits⟩
  · rw [opening, opened, openBlock, if_neg deeper, if_neg deeper, if_neg deeper]
    exact ⟨h, rfl, rfl, rfl⟩

theorem addMark_at (h : l.At (x :: v) column tokens blocks) (printable : IsPrintable x) (t : Token) :
    (l.addMark t).At v (column + 1) (t :: tokens) blocks := by
  have moved := Cursor.next_printable h.rest printable
  refine ⟨?_, ?_, ?_, h.blocks, ?_, h.depth, ?_, h.fits.next⟩
  · simp [addMark, moved]
  · simp [addMark, moved, h.column]
  · simp [addMark, add, h.tokens]
  · simp [addMark, add, h.count]
  · simp [addMark, h.beyond]

theorem addEntry_eq (h : a.At (x :: v) column tokens (i :: outer)) (fresh : a.Fresh) (printable : IsPrintable x)
    (opens t : Token) (allowed : Bool) :
    ∃ l, a.addEntry opens t allowed = .ok l ∧
      l.At v (column + 1) (t :: (opening opens column (i :: outer) ++ tokens)) (opened column (i :: outer)) ∧
      l.keyAllowed = allowed ∧ l.possible = [] := by
  have place : a.count = tokens.length := by rw [h.count, h.tokens]
  obtain ⟨here, -, possible, -⟩ := openBlock_at [] h column opens
  have drop : { a.openBlock column tokens.length opens with keyAllowed := allowed }.dropKey =
      .ok { a.openBlock column tokens.length opens with keyAllowed := allowed, possible := [] } := by
    simp [dropKey, forgetKey, possibleKey?, possible, fresh.possible]
  refine ⟨{ a.openBlock column tokens.length opens with keyAllowed := allowed, possible := [] }.addMark t, ?_, ?_,
    rfl, rfl⟩
  · simp only [addEntry, h.inFlow, fresh.keyAllowed, h.column, place, drop, Bool.not_false, Bool.not_true,
      Bool.and_false, Bool.false_eq_true, if_false, Except.ok_bind, Except.pure_eq]
  · exact addMark_at (here.keys _ _) printable t

/-- A mark in front of a blank or the end of a line starts no document. -/
theorem inside_mark (other : x ≠ '%') (gap : atGap v = true) : Inside column (x :: v) := by
  refine fun _ => ⟨by simpa using other, ?_⟩
  cases v with
  | nil => simp [atDocumentMark, atDocumentStart, atDocumentEnd]
  | cons y v =>
    have differ (z : Char) (h : isGap z = false) : y ≠ z := by
      rintro rfl
      rw [atGap, h] at gap
      cases gap
    have dash := differ '-' rfl
    have dot := differ '.' rfl
    simp [atDocumentMark, atDocumentStart, atDocumentEnd, dash, dot]

section Dispatch

variable (h : a.At (x :: v) column tokens blocks) (inside : Inside column (x :: v))

include h inside

theorem not_document :
    ((x :: v).head? == some '%' && a.cursor.column == 0) = false ∧
      (a.cursor.column == 0 && atDocumentStart (x :: v)) = false ∧
      (a.cursor.column == 0 && atDocumentEnd (x :: v)) = false := by
  rw [h.column]
  cases column with
  | succ n => simp
  | zero =>
    obtain ⟨percent, mark⟩ := inside rfl
    obtain ⟨start, stop⟩ := Bool.or_eq_false_iff.1 mark
    simpa [start, stop] using percent

theorem addNext_item (e : x = '-') (gap : atGap v = true) : a.addNext = a.addEntry .blockSequence .item true := by
  obtain ⟨percent, start, stop⟩ := not_document h inside
  subst e
  simp only [addNext, h.rest, percent, start, stop, Bool.false_eq_true, if_false]
  exact if_pos gap

theorem addNext_key (e : x = '?') (gap : atGap v = true) : a.addNext = a.addEntry .blockMapping .key true := by
  obtain ⟨percent, start, stop⟩ := not_document h inside
  subst e
  simp only [addNext, h.rest, percent, start, stop, h.inFlow, Bool.false_eq_true, if_false]
  exact if_pos gap

theorem addNext_value (e : x = ':') (gap : atGap v = true) : a.addNext = a.addValue := by
  obtain ⟨percent, start, stop⟩ := not_document h inside
  subst e
  simp only [addNext, h.rest, percent, start, stop, h.inFlow, Bool.false_eq_true, if_false]
  exact if_pos gap

theorem addNext_alias (e : x = '*') : a.addNext = a.addPiece (readName .alias) := by
  obtain ⟨percent, start, stop⟩ := not_document h inside
  subst e
  simp only [addNext, h.rest, percent, start, stop, Bool.false_eq_true, if_false]
  rfl

theorem addNext_anchor (e : x = '&') : a.addNext = a.addPiece (readName .anchor) := by
  obtain ⟨percent, start, stop⟩ := not_document h inside
  subst e
  simp only [addNext, h.rest, percent, start, stop, Bool.false_eq_true, if_false]
  rfl

theorem addNext_openSequence (e : x = '[') : a.addNext = a.openFlow .flowSequence := by
  obtain ⟨percent, start, stop⟩ := not_document h inside
  subst e
  simp only [addNext, h.rest, percent, start, stop, Bool.false_eq_true, if_false]

theorem addNext_openMapping (e : x = '\x7b') : a.addNext = a.openFlow .flowMapping := by
  obtain ⟨percent, start, stop⟩ := not_document h inside
  subst e
  simp only [addNext, h.rest, percent, start, stop, Bool.false_eq_true, if_false]

theorem addNext_quoted (e : x = '\'' ∨ x = '"') : a.addNext = a.addPiece (readQuoted x) := by
  obtain ⟨percent, start, stop⟩ := not_document h inside
  rcases e with rfl | rfl
  · simp only [addNext, h.rest, percent, start, stop, h.inFlow, Bool.false_eq_true, if_false]
    rfl
  · simp only [addNext, h.rest, percent, start, stop, h.inFlow, Bool.false_eq_true, if_false]
    rfl

theorem addNext_plain (unmarked : startsMark (x :: s) = false) (gap : isGap x = false)
    (next : atGap s = false → atGap v = false) : a.addNext = a.addPlain := by
  obtain ⟨percent, start, stop⟩ := not_document h inside
  simp only [startsMark, Bool.or_eq_false_iff, Bool.and_eq_false_imp] at unmarked
  obtain ⟨apart, marks⟩ := unmarked
  have other (c : Char) (hc : "#,[]\x7b\x7d&*!|>'\"%@\x60".toList.contains c = true) : x ≠ c := by
    rintro rfl
    rw [apart] at hc
    cases hc
  have mark (c : Char) (hc : (c == '?' || c == ':' || c == '-') = true) : (x == c && atGap v) = false := by
    by_cases e : x = c
    · rw [next (marks (e ▸ hc)), Bool.and_false]
    · rw [beq_eq_false_iff_ne.2 e, Bool.false_and]
  have plain : atPlain false (x :: v) = true := by
    by_cases dash : (x == '?' || x == ':' || x == '-') = true
    · have go : atGap v = false := next (marks dash)
      simp only [Bool.or_eq_true, beq_iff_eq] at dash
      rcases dash with (rfl | rfl) | rfl <;> simp [atPlain, go]
    · have indicators : ∀ c ∈ "-?:,[]\x7b\x7d#&*!|>'\"%@\x60".toList, (c == '?' || c == ':' || c == '-') = true ∨
          "#,[]\x7b\x7d&*!|>'\"%@\x60".toList.contains c = true := by simp
      have indicator : isIndicator x = false := by
        rw [Bool.eq_false_iff]
        intro e
        rcases indicators x (List.contains_iff_mem.1 e) with e | e
        · exact dash e
        · exact other x e rfl
      simp [atPlain, gap, indicator]
  have item := mark '-' rfl
  have key := mark '?' rfl
  have value := mark ':' rfl
  have differ (c : Char) (hc : "#,[]\x7b\x7d&*!|>'\"%@\x60".toList.contains c = true) : (x == c) = false :=
    beq_eq_false_iff_ne.2 (other c hc)
  simp only [addNext, h.rest, percent, start, stop, h.inFlow, Bool.false_eq_true, if_false]
  split
  · next e => exact absurd (List.cons.inj e).1 (other _ rfl)
  · next e => exact absurd (List.cons.inj e).1 (other _ rfl)
  · next e => exact absurd (List.cons.inj e).1 (other _ rfl)
  · next e => exact absurd (List.cons.inj e).1 (other _ rfl)
  · next e => exact absurd (List.cons.inj e).1 (other _ rfl)
  · next e =>
    obtain ⟨rfl, rfl⟩ := List.cons.inj e
    simp only [item, key, value, differ '*' rfl, differ '&' rfl, differ '!' rfl, differ '|' rfl, differ '>' rfl,
      differ '\'' rfl, differ '"' rfl, plain, Bool.false_or, Bool.false_and, Bool.false_eq_true, if_false, if_true]
  · next e => cases e

end Dispatch

theorem addNext_closeSequence (h : a.cursor.rest = ']' :: v) (inner : a.cursor.column ≠ 0) :
    a.addNext = a.closeFlow .flowSequenceEnd := by
  simp [addNext, h, inner]

theorem addNext_closeMapping (h : a.cursor.rest = '\x7d' :: v) (inner : a.cursor.column ≠ 0) :
    a.addNext = a.closeFlow .flowMappingEnd := by
  simp [addNext, h, inner]

/-! ## Texts, anchors and aliases -/

/-- Behind the start of a block no piece has to be a key. -/
theorem noteKey_eq (h : a.At s column tokens (i :: outer)) (harmless : a.Harmless) (deep : i < column) :
    ∃ possible, a.noteKey = .ok { a with possible := possible } ∧
      ∀ k ∈ possible, k.required = false ∧ k.start.line ≤ a.cursor.line := by
  have drop : a.dropKey = .ok a.forgetKey := dropKey_eq fun k hk => (harmless k hk).1
  obtain ⟨rfl, -⟩ := List.cons.inj h.blocks
  have notRequired : (!a.inFlow && a.indent == a.cursor.column) = false := by
    rw [h.column, beq_eq_false_iff_ne.2 (by omega), Bool.and_false]
  by_cases allowed : a.keyAllowed = true
  · refine ⟨⟨a.depth, a.count, false, a.cursor⟩ :: a.forgetKey.possible, ?_, ?_⟩
    · rw [noteKey, if_pos allowed, drop, Except.ok_bind]
      rw [show (!a.forgetKey.inFlow && a.forgetKey.indent == a.forgetKey.cursor.column) = false from notRequired]
      rfl
    · refine List.forall_mem_cons.2 ⟨⟨rfl, Nat.le_refl _⟩, fun k hk => ?_⟩
      exact harmless k (List.mem_filter.1 hk).1
  · exact ⟨a.possible, by rw [noteKey, if_neg allowed], harmless⟩

/-- A piece that takes `n` characters. -/
theorem addPiece_at (h : a.At s column tokens (i :: outer)) (harmless : a.Harmless) (deep : i < column)
    {read : Cursor → Except Fault (Token × Cursor)} {t : Token} {n : Nat}
    (reads : read a.cursor = .ok (t, a.cursor.advance n)) :
    ∃ l, a.addPiece read = .ok l ∧ l.At (s.drop n) (a.cursor.advance n).column (t :: tokens) (i :: outer) ∧
      l.Harmless ∧ l.keyAllowed = false := by
  obtain ⟨possible, note, kept⟩ := noteKey_eq h harmless deep
  refine ⟨{ a.add t with cursor := a.cursor.advance n, keyAllowed := false, possible := possible }, ?_, ?_, ?_, rfl⟩
  · simp only [addPiece, note, reads, Except.ok_bind, Except.pure_eq]
    rfl
  · refine ⟨by simp [h.rest], rfl, by simp [add, h.tokens], h.blocks, by simp [add, h.count], h.depth,
      by simp [h.beyond], h.fits.advance n⟩
  · exact fun k hk => ⟨(kept k hk).1, Nat.le_trans (kept k hk).2 (Cursor.line_le_advance n a.cursor)⟩

/-- A plain text that ends with its line. -/
theorem addPlain_at (h : a.At s column tokens (i :: outer)) (harmless : a.Harmless) (deep : i < column)
    {gap : PlainGap} {n : Nat} (reads : plainText false (i + 1) a.cursor = (t, gap)) (broken : gap.broken = true)
    (after : gap.after = a.cursor.advance n) (line : a.cursor.line < gap.after.line) :
    ∃ l, a.addPlain = .ok l ∧ l.At (s.drop n) gap.after.column (.scalar true t :: tokens) (i :: outer) ∧
      l.keyAllowed = true ∧ ∀ k ∈ l.possible, k.required = false ∧ k.start.line < l.cursor.line := by
  obtain ⟨possible, note, kept⟩ := noteKey_eq h harmless deep
  obtain ⟨rfl, -⟩ := List.cons.inj h.blocks
  refine ⟨{ a.add (.scalar true t) with cursor := gap.after, keyAllowed := true, possible := possible },
    ?_, ?_, rfl, ?_⟩
  · have flow : ({ a with possible := possible } : Layout).inFlow = false := h.inFlow
    simp only [addPlain, note, flow, reads, Except.ok_bind, Except.pure_eq, broken]
    rfl
  · refine ⟨by simp [h.rest, after], rfl, by simp [add, h.tokens], h.blocks, by simp [add, h.count], h.depth,
      by simp [h.beyond, after], by rw [after]; exact h.fits.advance n⟩
  · exact fun k hk => ⟨(kept k hk).1, Nat.lt_of_le_of_lt (kept k hk).2 line⟩

end Layout

end ZincModel.Yaml
