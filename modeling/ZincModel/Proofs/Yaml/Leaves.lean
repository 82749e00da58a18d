import ZincModel.Proofs.Yaml.Pieces

/-!
# Leaves

A leaf of an outline is written in one piece or as a pair of empty brackets. A `Leaf` is read as its tokens at every
place within a block, up to the next line. A short key and its colon, behind which its value stands, are read together
(`leads_key`): that the piece is a key is known at the colon only, and in time only if the key is not too long.
-/

namespace ZincModel.Yaml

open Json (IsPrintable)
open Layout (readName readQuoted)
open List (replicate)

/-! ## Names -/

theorem isWord_of_isGap {x : Char} (h : isGap x = true) : isWord x = false := by
  simp only [isGap, isBreak, Bool.or_eq_true, beq_iff_eq] at h
  rcases h with (rfl | rfl) | (((rfl | rfl) | rfl) | rfl) | rfl <;> decide

theorem isPrintable_of_isWord {x : Char} (h : isWord x = true) : IsPrintable x := by
  have letters : '0'.toNat = 48 ∧ '9'.toNat = 57 ∧ 'A'.toNat = 65 ∧ 'Z'.toNat = 90 ∧ 'a'.toNat = 97 ∧
      'z'.toNat = 122 := by decide
  simp only [isWord, Bool.or_eq_true, Bool.and_eq_true, decide_eq_true_eq, beq_iff_eq, Char.le_def,
    UInt32.le_iff_toNat_le] at h
  simp only [Char.toNat] at letters
  unfold IsPrintable Char.toNat
  rcases h with (((h | h) | h) | rfl) | rfl
  · omega
  · omega
  · omega
  · decide
  · decide

/-- A name is read up to a blank or the end of the line. -/
theorem readName_eq {c : Cursor} {x : Char} {name r : List Char} (here : c.rest = x :: (name ++ r))
    (word : ∀ y ∈ name, isWord y = true) (nonempty : name ≠ []) (gap : atGap r = true) (t : List Char → Token) :
    readName t c = .ok (t name, c.advance (name.length + 1)) := by
  have stops : ∀ y, r.head? = some y → isWord y = false := by
    intro y e
    cases r with
    | nil => cases e
    | cons z r =>
      cases e
      exact isWord_of_isGap gap
  have ends : endsName r = true := by
    cases r with
    | nil => rfl
    | cons z r => simp [endsName, show isGap z = true from gap]
  have taken := Cursor.takeWhile_eq (c := c.next) (p := isWord) (by simp [here]) word stops
  have rest : (c.next.advance name.length).rest = r := by simp [here]
  have some : name.isEmpty = false := List.isEmpty_eq_false_iff.2 nonempty
  simp only [readName, anchorName, taken, rest, ends, some, Bool.not_true, Bool.or_false, Bool.false_eq_true, if_false]
  rfl

/-! ## Pieces that are leaves -/

/-- What makes that a text can be written plainly. -/
structure PlainForm (s : List Char) : Prop where
  printable : ∀ x ∈ s, IsPrintable x
  first : s.head? ≠ some ' '
  last : s.getLast? ≠ some ' '
  dashes : "---".toList.isPrefixOf s = false
  dots : "...".toList.isPrefixOf s = false
  start : startsMark s = false
  unmarked : hasMark true s = false

theorem PlainForm.of_allowsPlain {s : List Char} (h : allowsPlain s = true) : PlainForm s := by
  simp only [allowsPlain, Bool.not_eq_true', Bool.or_eq_false_iff, beq_eq_false_iff_ne, List.any_eq_false] at h
  obtain ⟨⟨⟨⟨⟨⟨⟨special, newline⟩, first⟩, last⟩, dashes⟩, dots⟩, start⟩, unmarked⟩ := h
  refine ⟨fun x hx => ?_, first, last, dashes, dots, start, unmarked⟩
  have kept := special x hx
  have other : x ≠ '\n' := by
    rintro rfl
    rw [List.contains_iff_mem.2 hx] at newline
    cases newline
  simpa [isSpecial, other, IsPrintable] using kept

/-- A text between quotes or a plain text that can be read from where it has been written; lines go on in the
column `k`. -/
inductive ScalarText (k : Nat) (s : List Char) : (isPlain : Bool) → List Char → Prop
  | plain {u : List Char} : allowsPlain s = true → s ≠ [] → PlainText k true s u → ScalarText k s true u
  | single {w : List Char} : SingleText k false s w → ScalarText k s false ('\'' :: (w ++ ['\'']))
  | double {w : List Char} : DoubleText k s w → ScalarText k s false ('"' :: (w ++ ['"']))

theorem ScalarText.ne_nil {k : Nat} {s u : List Char} {isPlain : Bool} (h : ScalarText k s isPlain u) : u ≠ [] := by
  cases h with
  | plain _ _ text => cases text <;> simp
  | single => simp
  | double => simp

/-- The text `u`, written in a block at the column `i`, is read as the tokens, wherever that is. -/
structure Leaf (i : Nat) (u : List Char) (toks : List Token) : Prop where
  written : ∀ x ∈ u, IsWritten x
  first : ∃ x v, u = x :: v ∧ isGap x = false ∧ x ≠ '#'
  read : ∀ {l a : Layout} {t : List Char} {c column : Nat} {tokens : List Token} {outer : List Int},
    l.approach = .ok a → a.At (u ++ '\n' :: (replicate c ' ' ++ t)) column tokens (i :: outer) → a.Harmless →
    i < column → Opens c t → c ≤ i →
    ∃ b, l.Leads b ∧ b.Arrives t c (closing c (i :: outer) ++ (toks.reverse ++ tokens)) (remaining c (i :: outer))

namespace Leaf

variable {i k : Nat} {s u w : List Char}

/-- A piece of its own kind, which is not plain. -/
theorem of_piece {x : Char} {v : List Char} {tok : Token} (read : Cursor → Except Fault (Token × Cursor))
    (written : ∀ c ∈ x :: v, IsWritten c) (first : isGap x = false ∧ x ≠ '#')
    (next : ∀ {a : Layout} {r : List Char} {column : Nat} {tokens : List Token} {blocks : List Int},
      a.At (x :: r) column tokens blocks → Layout.Inside column (x :: r) → a.addNext = a.addPiece read)
    (reads : ∀ {c : Cursor} {t : List Char}, c.rest = (x :: v) ++ '\n' :: t → c.Fits →
      read c = .ok (tok, c.advance (x :: v).length)) : Leaf i (x :: v) [tok] where
  written := written
  first := ⟨x, v, rfl, first⟩
  read := by
    intro l a t c column tokens outer approach here harmless deep opens _
    have inside : Layout.Inside column (x :: (v ++ '\n' :: (replicate c ' ' ++ t))) := .of_pos (by omega) _
    obtain ⟨b, piece, later, harmless', -⟩ := Layout.addPiece_at here harmless (by omega) (reads here.rest here.fits)
    rw [List.drop_left'  rfl] at later
    refine ⟨b, ?_, Layout.arrives_line later opens.toBegins harmless'⟩
    exact Layout.leads_piece approach here (by simp) ((next here inside).trans piece)
      (Nat.le_of_eq (by rw [later.rest])) later.beyond

theorem quoted {quote : Char} (quotes : quote = '\'' ∨ quote = '"') (written : ∀ c ∈ w, IsWritten c)
    (reads : ∀ {c : Cursor} {t : List Char}, c.rest = quote :: (w ++ quote :: '\n' :: t) → c.Fits →
      quotedText quote c = .ok (s, c.advance (w.length + 2))) :
    Leaf i (quote :: (w ++ [quote])) [.scalar false s] := by
  have printable : IsPrintable quote := by rcases quotes with rfl | rfl <;> decide
  refine of_piece (readQuoted quote) ?_ ?_ ?_ ?_
  · simp only [List.forall_mem_cons, List.forall_mem_append]
    exact ⟨.inr printable, written, .inr printable, by simp⟩
  · rcases quotes with rfl | rfl <;> exact ⟨rfl, by decide⟩
  · exact fun here inside => Layout.addNext_quoted here inside quotes
  · intro c t here fits
    rw [readQuoted, reads (t := t) (by simpa using here) fits]
    simp [Except.map]

theorem reference {name : List Char} (word : ∀ c ∈ name, isWord c = true) (nonempty : name ≠ []) :
    Leaf i ('*' :: name) [.alias name] := by
  refine of_piece (readName .alias) ?_ ⟨rfl, by decide⟩ ?_ ?_
  · exact List.forall_mem_cons.2 ⟨.inr (by decide), fun c hc => .inr (isPrintable_of_isWord (word c hc))⟩
  · exact fun here inside => Layout.addNext_alias here inside rfl
  · exact fun here _ => readName_eq here word nonempty rfl _

theorem plain (h : PlainText (i + 2) true s u) (allowed : allowsPlain s = true) (nonempty : s ≠ []) :
    Leaf i u [.scalar true s] := by
  obtain ⟨y, s', rfl⟩ := List.exists_cons_of_ne_nil nonempty
  obtain ⟨-, first, -, -, -, start, unmarked⟩ := PlainForm.of_allowsPlain allowed
  have number : y ≠ '#' := by
    rintro rfl
    cases start
  cases h with
  | space => exact absurd rfl first
  | @char _ _ _ w printable other text =>
    have gap : isGap y = false := by rw [printable.isGap, beq_eq_false_iff_ne.2 other]
    refine ⟨(PlainText.char (b := true) printable other text).isWritten, ⟨y, w, rfl, gap, number⟩, ?_⟩
    intro l a t c column tokens outer approach here harmless deep opens inner
    have whole : PlainText (i + 2) true (y :: s') (y :: w) := .char printable other text
    have behind := Cursor.rest_advance_append here.rest
    have down := Cursor.advance_line behind
    have enough : (y :: w).length ≤ a.cursor.size := by
      have fits := here.fits
      rw [Cursor.Fits, here.rest, List.length_append] at fits
      omega
    obtain ⟨ends, gap'⟩ := plainEnd_line (i + 1) behind opens (by omega)
    have reads := whole.read first (Nat.succ_pos _) (by push_cast; omega) here.rest (by rw [here.column]; omega)
      unmarked ends enough
    rw [gap', ← Cursor.advance_add] at reads
    have line : a.cursor.line < (a.cursor.advance ((y :: w).length + (c + 1))).line := by
      rw [Cursor.advance_add, down]
      exact Nat.lt_succ_of_le (Cursor.line_le_advance _ _)
    obtain ⟨b, piece, later, allowed', kept⟩ := Layout.addPlain_at here harmless (by omega) reads rfl rfl line
    have rest : ((y :: w) ++ '\n' :: (replicate c ' ' ++ t)).drop ((y :: w).length + (c + 1)) = t := by
      rw [← List.drop_drop, List.drop_left' rfl, List.drop_succ_cons, List.drop_left' (List.length_replicate ..)]
    rw [rest, Cursor.advance_add, down] at later
    have next := Layout.addNext_plain here (.of_pos (by omega) _) start gap fun e => atGap_of_colon text e _
    refine ⟨b, Layout.leads_piece approach here (by simp) (next.trans piece) ?_ later.beyond, ?_⟩
    · rw [later.rest]
      simp
      omega
    · exact Layout.arrives_of_skip (Layout.skipToPiece_here later opens.toBegins) later allowed' kept

/-- A pair of brackets, which stays outside of all blocks. -/
theorem brackets {x y : Char} {tok tok' : Token} (first : isGap x = false ∧ x ≠ '#') (printable : IsPrintable x)
    (last : isGap y = false ∧ y ≠ '#') (printable' : IsPrintable y)
    (opens : ∀ {a : Layout} {r : List Char} {column : Nat} {tokens : List Token} {blocks : List Int},
      a.At (x :: r) column tokens blocks → Layout.Inside column (x :: r) → a.addNext = a.openFlow tok)
    (closes : ∀ {a : Layout} {r : List Char}, a.cursor.rest = y :: r → a.cursor.column ≠ 0 →
      a.addNext = a.closeFlow tok') : Leaf i [x, y] [tok, tok'] where
  written := by simpa using ⟨.inr printable, .inr printable'⟩
  first := ⟨x, [y], rfl, first⟩
  read := by
    intro l a t c column tokens outer approach here harmless deep follows _
    have inside : Layout.Inside column (x :: y :: '\n' :: (replicate c ' ' ++ t)) := .of_pos (by omega) _
    obtain ⟨possible, note, kept⟩ := Layout.noteKey_eq here harmless (by omega)
    have moved := Cursor.next_printable here.rest printable
    -- between the brackets
    let b : Layout := { a with possible := possible, depth := 1, keyAllowed := true }.addMark tok
    have depth : a.depth = 0 := here.depth
    have piece : a.addNext = .ok b := by
      rw [opens here inside]
      simp only [Layout.openFlow, note, Except.ok_bind, Except.pure_eq, depth]
      rfl
    have rest : b.cursor.rest = y :: '\n' :: (replicate c ' ' ++ t) := by
      change a.cursor.next.rest = _
      rw [moved]
      rfl
    have beyond : b.cursor.beyond = none := (Cursor.beyond_next _).trans here.beyond
    have begins : Begins (y :: '\n' :: (replicate c ' ' ++ t)) :=
      ⟨fun x e => by cases e; exact last.1, by simpa [atComment] using last.2⟩
    have harmless' : ∀ k ∈ b.possible, k.required = false ∧ k.start.line ≤ b.cursor.line :=
      fun k hk => ⟨(kept k hk).1, Nat.le_trans (kept k hk).2 (Cursor.line_le_next _)⟩
    let d : Layout := { b with possible := b.possible.filter (!Layout.isStale b.cursor ·) }
    have approach' : b.approach = .ok d := by
      have skip : b.skipToPiece b.cursor.bound = b := Layout.skipToPiece_spaces (n := 0) rest begins _
      have drop : b.dropStale = .ok d := Layout.dropStale_eq fun k hk _ => (harmless' k hk).1
      simp only [Layout.approach, skip, Cursor.look_eq beyond, drop, Except.ok_bind, Except.pure_eq]
      rfl
    let e : Layout := { d.forgetKey with depth := 0, keyAllowed := false }.addMark tok'
    have piece' : d.addNext = .ok e := by
      have drop : d.dropKey = .ok d.forgetKey :=
        Layout.dropKey_eq fun k hk => (harmless' k (List.mem_filter.1 hk).1).1
      have close : d.addNext = d.closeFlow tok' :=
        closes rest (by change a.cursor.next.column ≠ 0; rw [moved]; exact Nat.succ_ne_zero _)
      have flow : d.forgetKey.depth - 1 = 0 := rfl
      rw [close, Layout.closeFlow, drop, Except.ok_bind, flow]
      rfl
    have moved' := Cursor.next_printable rest printable'
    have later : e.At ('\n' :: (replicate c ' ' ++ t)) e.cursor.column (tok' :: tok :: tokens) (i :: outer) := by
      refine ⟨congrArg Cursor.rest moved', rfl, ?_, here.blocks, ?_, rfl, (Cursor.beyond_next _).trans beyond,
        here.fits.next.next⟩
      · change tok' :: tok :: a.tokens = _
        rw [here.tokens]
      · change a.count + 1 + 1 = (tok' :: tok :: a.tokens).length
        rw [here.count]
        rfl
    have quiet : e.Harmless := by
      intro k hk
      obtain ⟨required, line⟩ := harmless' k (List.mem_filter.1 (List.mem_filter.1 hk).1).1
      exact ⟨required, Nat.le_trans line (Cursor.line_le_next _)⟩
    refine ⟨e, ?_, Layout.arrives_line later follows.toBegins quiet⟩
    have start := Layout.leads_piece (u := [x]) approach here (by simp) piece (Nat.le_of_eq (by rw [rest]; rfl)) beyond
    refine start.tail ⟨d, approach', ?_, piece', later.beyond, ?_⟩
    · rw [show d.cursor.rest = _ from rest]
      simp
    · rw [later.rest, rest]
      simp

theorem emptySequence : Leaf i ['[', ']'] [.flowSequence, .flowSequenceEnd] :=
  brackets ⟨rfl, by decide⟩ (by decide) ⟨rfl, by decide⟩ (by decide)
    (fun here inside => Layout.addNext_openSequence here inside rfl) Layout.addNext_closeSequence

theorem emptyMapping : Leaf i ['\x7b', '\x7d'] [.flowMapping, .flowMappingEnd] :=
  brackets ⟨rfl, by decide⟩ (by decide) ⟨rfl, by decide⟩ (by decide)
    (fun here inside => Layout.addNext_openMapping here inside rfl) Layout.addNext_closeMapping

theorem scalar {isPlain : Bool} (h : ScalarText (i + 2) s isPlain u) : Leaf i u [.scalar isPlain s] := by
  cases h with
  | plain allowed nonempty text => exact plain text allowed nonempty
  | single text =>
    exact quoted (.inl rfl) text.isWritten fun here fits => text.read (Nat.succ_pos _) here (by simp) fits
  | double text =>
    exact quoted (.inr rfl) text.isWritten fun here fits => text.read (Nat.succ_pos _) here fits

end Leaf

/-! ## Keys in front of their colons -/

namespace Layout

variable {l a : Layout} {k d : Nat} {i : Int} {s u v : List Char} {tokens : List Token} {outer : List Int}
  {isPlain : Bool}

/-- The piece at a place is kept in mind as a possible key. -/
def keyAt (a : Layout) : PossibleKey := ⟨a.depth, a.count, !a.inFlow && a.indent == a.cursor.column, a.cursor⟩

theorem noteKey_fresh (fresh : a.Fresh) : a.noteKey = .ok { a with possible := [a.keyAt] } := by
  have drop : a.dropKey = .ok { a with possible := [] } := by
    rw [dropKey, possibleKey?, forgetKey, fresh.possible]
    rfl
  rw [noteKey, if_pos fresh.keyAllowed, drop, Except.ok_bind]
  rfl

/-- The layout behind a key. -/
def behindKey (a : Layout) (isPlain : Bool) (s : List Char) (n : Nat) : Layout :=
  { a.add (.scalar isPlain s) with cursor := a.cursor.advance n, keyAllowed := false, possible := [a.keyAt] }

theorem addNext_keyText (here : a.At (u ++ ':' :: v) d tokens (i :: outer)) (fresh : a.Fresh)
    (text : ScalarText k s isPlain u) (deep : i < k) (positive : 0 < k) (within : i ≤ d) (gap : atGap v = true)
    (inside : Inside d (u ++ ':' :: v)) : a.addNext = .ok (a.behindKey isPlain s u.length) := by
  obtain ⟨rfl, -⟩ := List.cons.inj here.blocks
  have note := noteKey_fresh fresh
  cases text with
  | single text =>
    have read := text.read positive (c := a.cursor) (t := ':' :: v) (by simpa using here.rest) (by simp) here.fits
    rw [addNext_quoted here inside (.inl rfl)]
    simp only [addPiece, note, readQuoted, read, Except.ok_bind, Except.pure_eq, Except.map]
    simp [behindKey, add]
  | double text =>
    have read := text.read positive (c := a.cursor) (t := ':' :: v) (by simpa using here.rest) here.fits
    rw [addNext_quoted here inside (.inr rfl)]
    simp only [addPiece, note, readQuoted, read, Except.ok_bind, Except.pure_eq, Except.map]
    simp [behindKey, add]
  | plain allowed nonempty text =>
    obtain ⟨y, s', rfl⟩ := List.exists_cons_of_ne_nil nonempty
    obtain ⟨-, first, -, -, -, start, unmarked⟩ := PlainForm.of_allowsPlain allowed
    have behind := Cursor.rest_advance_append here.rest
    obtain ⟨ends, gap'⟩ := plainEnd_colon (a.indent + 1) behind gap
    have enough : u.length ≤ a.cursor.size := by
      have fits := here.fits
      rw [Cursor.Fits, here.rest, List.length_append] at fits
      omega
    have read := text.read first positive (by omega) here.rest (by rw [here.column]; omega) unmarked ends enough
    rw [gap'] at read
    cases text with
    | space => exact absurd rfl first
    | @char _ _ _ w printable other text =>
      have next := addNext_plain here inside start (by rw [printable.isGap, beq_eq_false_iff_ne.2 other])
        fun e => atGap_of_colon text e _
      have flow : ({ a with possible := [a.keyAt] } : Layout).inFlow = false := here.inFlow
      rw [next]
      simp only [addPlain, note, flow, read, Except.ok_bind, Except.pure_eq]
      rfl

/-- The colon behind a key. -/
theorem addValue_eq {k : PossibleKey} {column : Nat} {tok : Token}
    (h : a.At (':' :: v) column ([tok] ++ tokens) (i :: outer)) (possible : a.possible = [k]) (depth : k.depth = 0)
    (place : k.place = tokens.length) (start : k.start.column = d) :
    ∃ b, a.addValue = .ok b ∧
      b.At v (column + 1) (.value :: tok :: .key :: (opening .blockMapping d (i :: outer) ++ tokens))
        (opened d (i :: outer)) ∧
      b.keyAllowed = false ∧ b.possible = [] := by
  have found : a.possibleKey? = some k := by simp [possibleKey?, possible, depth, h.depth]
  have forget : a.forgetKey = { a with possible := [] } := by simp [forgetKey, possible, depth, h.depth]
  have key := insert_at (h.keys a.keyAllowed []) .key
  rw [← forget] at key
  have outside : (a.forgetKey.insert k.place .key).inFlow = false := h.inFlow
  obtain ⟨block, -, none, -⟩ := openBlock_at [tok, .key] key d .blockMapping
  rw [← place] at block none
  refine ⟨{ ((a.forgetKey.insert k.place .key).openBlock d k.place .blockMapping) with keyAllowed := false }.addMark
    .value, ?_, ?_, rfl, ?_⟩
  · simp only [addValue, found, outside, start, Bool.false_eq_true, if_false]
  · exact addMark_at (block.keys false _) (by decide) .value
  · refine none.trans ?_
    rw [forget]
    rfl

/-- A short key and its colon are read together; the block is opened in front of the key. -/
theorem leads_key (approach : l.approach = .ok a) (here : a.At (u ++ ':' :: v) d tokens (i :: outer))
    (fresh : a.Fresh) (text : ScalarText k s isPlain u) (printable : ∀ x ∈ u, IsPrintable x)
    (short : u.length ≤ 1024) (deep : i < k) (positive : 0 < k) (within : i ≤ d) (gap : atGap v = true)
    (inside : Inside d (u ++ ':' :: v)) :
    ∃ b, l.Leads b ∧
      b.At v (d + u.length + 1)
        (.value :: .scalar isPlain s :: .key :: (opening .blockMapping d (i :: outer) ++ tokens))
        (opened d (i :: outer)) ∧
      b.keyAllowed = false ∧ b.possible = [] := by
  have piece := addNext_keyText here fresh text deep positive within gap inside
  have moved := Cursor.advance_printable here.rest printable
  have behind : (a.behindKey isPlain s u.length).At (':' :: v) (d + u.length) ([.scalar isPlain s] ++ tokens)
      (i :: outer) := by
    refine ⟨congrArg Cursor.rest moved, ?_, ?_, here.blocks, ?_, here.depth, ?_, here.fits.advance _⟩
    · exact (congrArg Cursor.column moved).trans (by simp [here.column])
    · exact congrArg (Token.scalar isPlain s :: ·) here.tokens
    · simp [behindKey, add, here.count]
    · exact (Cursor.beyond_advance _ _).trans here.beyond
  have current : isStale (a.behindKey isPlain s u.length).cursor a.keyAt = false := by
    simp only [isStale, behindKey, keyAt, moved, bne_self_eq_false, Bool.false_or, decide_eq_false_iff_not]
    omega
  have begins : Begins (':' :: v) := ⟨fun x e => by cases e; rfl, rfl⟩
  obtain ⟨a', approach', here', -, possible, -⟩ := approach_of_skip (skipToPiece_here behind begins) behind
    fun k hk stale => by
      rw [List.mem_singleton.1 hk, current] at stale
      cases stale
  rw [closing_of_le (by omega), remaining_of_le (by omega), List.nil_append] at here'
  have possible' : a'.possible = [a.keyAt] := by
    rw [possible]
    exact List.filter_cons_of_pos (by rw [current]; rfl)
  have place : a.keyAt.place = tokens.length := by rw [keyAt, here.count, here.tokens]
  obtain ⟨b, value, later, allowed, none⟩ := addValue_eq here' possible' here.depth place here.column
  have start := leads_piece approach here text.ne_nil piece (Nat.le_of_eq (by rw [behind.rest])) behind.beyond
  have next := (addNext_value here' (inside_mark (by decide) gap) rfl gap).trans value
  refine ⟨b, start.trans (leads_piece (u := [':']) approach' here' (by simp) next (Nat.le_of_eq (by rw [later.rest]))
    later.beyond), later, allowed, none⟩

end Layout

end ZincModel.Yaml
