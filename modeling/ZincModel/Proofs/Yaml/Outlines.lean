import ZincModel.Proofs.Yaml.Parts

/-!
# The tokens of an outline

A `Sound` outline is written as a text that has its tokens. By induction on the outline every part of it is written
as a part that can be read (`exists_part`), and from that the text of the whole has the tokens between those that start
and end the outermost block (`tokensOf_write`).
-/

namespace ZincModel.Yaml

open List (replicate)

/-! ## Tokens -/

/-- The anchor in front of the value with a number, if it has one. -/
def anchorTokens (anchors : Anchors) (number : Option Nat) : List Token :=
  match anchorOf anchors number with
  | some name => [.anchor name]
  | none => []

mutual

/-- The tokens of an outline behind a mark or a text. A sequence that is the value of an entry goes on with the block
around it, unless it starts behind a mark. -/
def Outline.tokens (anchors : Anchors) (isEntry isMark : Bool) : Outline → List Token
  | .alias n => [.alias ((anchorOf anchors (some n)).getD [])]
  | .scalar number tag s => anchorTokens anchors number ++ [.scalar (styleOf false tag s == .plain) s]
  | .sequence number _ items =>
    anchorTokens anchors number ++
      if items.isEmpty then [.flowSequence, .flowSequenceEnd]
      else if isEntry && !(isMark && (anchorOf anchors number).isNone) then itemTokens anchors items
      else .blockSequence :: (itemTokens anchors items ++ [.blockEnd])
  | .mapping number _ entries =>
    anchorTokens anchors number ++
      if entries.isEmpty then [.flowMapping, .flowMappingEnd]
      else .blockMapping :: (entryTokens anchors entries ++ [.blockEnd])
termination_by structural x => x

/-- The tokens of items. -/
def itemTokens (anchors : Anchors) : List Outline → List Token
  | [] => []
  | o :: rest => .item :: (o.tokens anchors false true ++ itemTokens anchors rest)
termination_by structural x => x

/-- The tokens of entries. -/
def entryTokens (anchors : Anchors) : List (Outline × Outline) → List Token
  | [] => []
  | (k, v) :: rest =>
    .key :: (k.tokens anchors true true ++
      .value :: (v.tokens anchors true (!isShortKey anchors k) ++ entryTokens anchors rest))
termination_by structural x => x

end

/-! ## Sound outlines -/

/-- The names of anchors are words. -/
def Anchors.Named (anchors : Anchors) : Prop :=
  ∀ n name, anchors.lookup n = some name → name ≠ [] ∧ ∀ c ∈ name, isWord c = true

/-- In lines that go on in the column `k` a text is not folded at a space behind an escape as soon as a line has been
begun. -/
def IsNarrow (k : Nat) (s : List Char) : Prop := k < Sheet.width ∨ hasEscapedGap s = false

/-- The scalar has its tag without being told so: a text, or what is taken for something of this kind. -/
def IsTyped (tag : Tag) (s : List Char) : Prop := tag = .str ∨ tagOfPlain s = tag ∧ allowsPlain s = true ∧ s ≠ []

theorem IsTyped.ne_binary {tag : Tag} {s : List Char} (h : IsTyped tag s) : tag ≠ .binary := by
  rcases h with rfl | ⟨rfl, -, -⟩
  · decide
  · exact tagOfPlain_ne_binary s

/-- A key can be read from where it is written: in front of its colon it is not too long. -/
def IsKey (anchors : Anchors) (k : Nat) (o : Outline) : Prop :=
  ∃ s, o = .scalar none .str s ∧ if isShortKey anchors o then keyWidth s ≤ 1024 else IsNarrow k s

/-- An outline of lists and dictionaries whose keys are texts, and of scalars, which can be read from where it is
written. Its lines go on in the column `k`, and those of a sequence that is `flush` do not stand further to the
right. -/
inductive Sound (anchors : Anchors) : (k : Nat) → (flush : Bool) → Outline → Prop
  | scalar {k : Nat} {flush : Bool} {tag : Tag} {s : List Char} :
      IsTyped tag s → IsNarrow k s → Sound anchors k flush (.scalar none tag s)
  | reference {k : Nat} {flush : Bool} {n : Nat} : (anchors.lookup n).isSome → Sound anchors k flush (.alias n)
  | sequence {k : Nat} {flush : Bool} {number : Option Nat} {items : List Outline} :
      (∀ o ∈ items, Sound anchors (if flush then k else k + 2) false o) →
      Sound anchors k flush (.sequence number .seq items)
  | mapping {k : Nat} {flush : Bool} {number : Option Nat} {entries : List (Outline × Outline)} :
      (∀ e ∈ entries, IsKey anchors (k + 2) e.1) →
      (∀ e ∈ entries, Sound anchors (k + 2) (isShortKey anchors e.1) e.2) →
      Sound anchors k flush (.mapping number .map entries)

/-! ## Sheets -/

namespace Sheet

variable {p q r : Sheet} {w w' : List Char} {d i : Nat} {isMark : Bool}

/-- A part of a block at the column `i` is to be written behind a mark or behind a text. -/
structure Behind (p : Sheet) (i : Nat) (isMark : Bool) : Prop where
  afterBlank : p.afterBlank = false
  place : if isMark then p.atMargin = true ∧ p.column = i + 1 else p.atMargin = false

/-- An item or entry of a block at the column `d` is to be written. -/
structure AtRow (p : Sheet) (d : Nat) : Prop where
  afterBlank : p.afterBlank = true
  atMargin : p.atMargin = true
  column : p.column = d

theorem Adds.behind (h : p.Adds w q) (i : Nat) : q.Behind i false := ⟨h.afterBlank, h.atMargin⟩

theorem Behind.gap (h : p.Behind i isMark) : p.gap = [' '] := by simp [Sheet.gap, h.afterBlank]

/-- A mark of an item, a key or a value. -/
theorem AtRow.mark (h : p.AtRow d) (x : Char) :
    (p.mark true [x]).written = x :: p.written ∧ (p.mark true [x]).Behind d true := by
  rw [mark_eq, Sheet.gap, h.afterBlank, h.atMargin]
  exact ⟨rfl, rfl, rfl, congrArg (· + 1) h.column⟩

theorem indentTo_adds (h : p.Adds w q) (d : Nat) :
    (q.indentTo d).written = replicate d ' ' ++ '\n' :: q.written ∧ (q.indentTo d).AtRow d := by
  rw [indentTo_eq (.inl h.atMargin)]
  exact ⟨rfl, rfl, rfl, rfl⟩

/-- What is added to the next line. -/
theorem Adds.line (h : p.Adds w q) (h' : (q.indentTo d).Adds w' r) :
    p.Adds (w ++ '\n' :: (replicate d ' ' ++ w')) r :=
  ⟨by rw [h'.written, (indentTo_adds h d).1, h.written]; simp, h'.afterBlank, h'.atMargin⟩

end Sheet

/-! ## Writing what can be read -/

section Writing

variable {anchors : Anchors} {p : Sheet} {i d : Nat} {isMark : Bool}

/-- From the sheet `p` on a part with the tokens is written. -/
def Writes (i : Nat) (isMark : Bool) (p q : Sheet) (toks : List Token) : Prop :=
  ∃ w, p.Adds w q ∧ Part i isMark w toks

/-- From the sheet `p` on items or entries with the tokens are written. -/
def WritesRows (d : Nat) (o : Token) (p q : Sheet) (toks : List Token) : Prop := ∃ w, p.Adds w q ∧ Rows d o w toks

theorem writes_leaf {u : List Char} {toks : List Token} {q : Sheet} (behind : p.Behind i isMark)
    (adds : p.Adds (p.gap ++ u) q) (leaf : Leaf i u toks) : Writes i isMark p q toks := by
  rw [behind.gap] at adds
  exact ⟨_, adds, .leaf leaf⟩

/-- A block that is indented. -/
theorem writes_block {o : Token} {toks : List Token} {q : Sheet} (behind : p.Behind i isMark)
    (rows : (p.indentTo (i + 2)).AtRow (i + 2) → WritesRows (i + 2) o (p.indentTo (i + 2)) q toks) :
    Writes i isMark p q (o :: (toks ++ [.blockEnd])) := by
  cases isMark with
  | true =>
    have here := Sheet.indentTo_mark behind.place.1 behind.place.2
    obtain ⟨w, adds, rows⟩ := rows (here ▸ ⟨rfl, rfl, rfl⟩)
    rw [here] at adds
    exact ⟨_, ⟨by simp [adds.written], adds.afterBlank, adds.atMargin⟩, .block_mark rows⟩
  | false =>
    have here := Sheet.indentTo_eq (k := i + 2) (.inl behind.place)
    obtain ⟨w, adds, rows⟩ := rows (here ▸ ⟨rfl, rfl, rfl⟩)
    rw [here] at adds
    exact ⟨_, ⟨by simp [adds.written], adds.afterBlank, adds.atMargin⟩, .block_line rows⟩

/-- Rows that go on with the block around them. -/
theorem writes_flush {o : Token} {toks : List Token} {q : Sheet} (behind : p.Behind i false)
    (rows : (p.indentTo i).AtRow i → WritesRows i o (p.indentTo i) q toks) : Writes i false p q toks := by
  have here := Sheet.indentTo_eq (k := i) (.inl behind.place)
  obtain ⟨w, adds, rows⟩ := rows (here ▸ ⟨rfl, rfl, rfl⟩)
  rw [here] at adds
  exact ⟨_, ⟨by simp [adds.written], adds.afterBlank, adds.atMargin⟩, .flush rows⟩

/-- What stands behind an anchor stands behind a text. -/
theorem writes_anchor (named : anchors.Named) {number : Option Nat} (behind : p.Behind i isMark)
    (write : Sheet → Sheet) (toks : Bool → List Token)
    (part : ∀ isMark' p, (isMark' = true → isMark = true) → Sheet.Behind p i isMark' →
      Writes i isMark' p (write p) (toks isMark')) :
    Writes i isMark p (write (p.anchor anchors number))
      (anchorTokens anchors number ++ toks (isMark && (anchorOf anchors number).isNone)) := by
  cases e : anchorOf anchors number with
  | none => simpa [Sheet.anchor, anchorTokens, e] using part isMark p id behind
  | some name =>
    obtain ⟨n, -, found⟩ := Option.bind_eq_some_iff.1 e
    obtain ⟨nonempty, word⟩ := named n name found
    have begun := p.adds_mark ('&' :: name)
    rw [behind.gap] at begun
    obtain ⟨w, adds, part⟩ := part false (p.mark false ('&' :: name)) (by simp) (begun.behind i)
    refine ⟨' ' :: '&' :: (name ++ w), ?_, ?_⟩
    · have whole := Sheet.Adds.trans begun.written adds
      simpa [Sheet.anchor, e] using whole
    · have whole : Part i isMark (' ' :: '&' :: (name ++ w)) (.anchor name :: toks false) := part.anchor word nonempty
      simpa [anchorTokens, e] using whole

theorem writePart_scalar {role : Role} {tag : Tag} {s : List Char}
    (typed : IsTyped tag s) (short : role = .key → s ≠ [] ∧ isMultiline s = false) (p : Sheet) :
    writePart anchors role (some i) (.scalar none tag s) p =
      p.scalar (styleOf false tag s) (role != .key) (i + 2) s := by
  have style : styleOf (role == .key) tag s = styleOf false tag s := by
    by_cases isKey : role = .key
    · rw [isKey]
      exact styleOf_key typed.ne_binary (short isKey).1 (short isKey).2
    · rw [beq_eq_false_iff_ne.2 isKey]
  have implied : isImplied (styleOf false tag s) tag s = true := by
    rcases typed with rfl | ⟨kind, allowed, -⟩
    · by_cases plain : styleOf false .str s = .plain
      · simp [isImplied, plain, (styleOf_plain plain).1]
      · simp [isImplied, plain]
    · simp [isImplied, styleOf_eq_plain kind allowed, kind]
  simp only [writePart, Sheet.anchor, anchorOf, Option.bind_none, style, implied, if_true, scalarIndent,
    Option.getD_some]
  rfl

theorem writes_scalar (role : Role) {tag : Tag} {s : List Char} (inner : role ≠ .key) (behind : p.Behind i isMark)
    (typed : IsTyped tag s) (narrow : IsNarrow (i + 2) s) :
    Writes i isMark p (writePart anchors role (some i) (.scalar none tag s) p)
      [.scalar (styleOf false tag s == .plain) s] := by
  have empty : tag = .null → s ≠ [] := by
    rintro rfl
    exact (typed.resolve_left (by decide)).2.2
  obtain ⟨u, text, adds⟩ := scalar_text (k := i + 2) typed.ne_binary empty (role != .key)
    (fun _ => narrow) p
  rw [writePart_scalar typed (fun e => absurd e inner)]
  exact writes_leaf behind adds (.scalar text)

/-- A part is written as what can be read, wherever it is. -/
def IsWritable (anchors : Anchors) (k : Nat) (flush : Bool) (o : Outline) : Prop :=
  ∀ {i : Nat} (role : Role) {isMark : Bool} {p : Sheet}, i + 2 ≤ k → (flush = true → role = .entry ∧ isMark = false) →
    role ≠ .key → p.Behind i isMark →
    Writes i isMark p (writePart anchors role (some i) o p) (o.tokens anchors (role == .entry) isMark)

section Rows

variable {k : Nat} {q r : Sheet} {o : Token} {toks toks' : List Token}

theorem WritesRows.line (h : WritesRows d o p q toks)
    (h' : (q.indentTo d).AtRow d → WritesRows d o (q.indentTo d) r toks') : WritesRows d o p r (toks ++ toks') := by
  obtain ⟨w, adds, rows⟩ := h
  obtain ⟨w', adds', rows'⟩ := h' (Sheet.indentTo_adds adds d).2
  exact ⟨_, adds.line adds', rows.append rows'⟩

theorem writesRows_item {item : Outline} (h : IsWritable anchors k false item) (deep : d + 2 ≤ k) (row : p.AtRow d) :
    WritesRows d .blockSequence p (writePart anchors .item (some d) item (p.mark true ['-']))
      (.item :: item.tokens anchors false true) := by
  obtain ⟨written, behind⟩ := row.mark '-'
  obtain ⟨w, adds, part⟩ := h .item deep (by simp) (by decide) behind
  exact ⟨'-' :: w, .trans (u := ['-']) written adds, .item part⟩

theorem writesRows_items {items : List Outline} (h : ∀ item ∈ items, IsWritable anchors k false item)
    (deep : d + 2 ≤ k) (nonempty : items ≠ []) (row : (p.indentTo d).AtRow d) :
    WritesRows d .blockSequence (p.indentTo d) (writeItems anchors d items p) (itemTokens anchors items) := by
  induction items generalizing p with
  | nil => exact absurd rfl nonempty
  | cons item rest ih =>
    obtain ⟨here, others⟩ := List.forall_mem_cons.1 h
    have first := writesRows_item here deep row
    rw [writeItems, itemTokens]
    cases rest with
    | nil => simpa [writeItems, itemTokens] using first
    | cons item' rest => exact first.line fun row => ih others (by simp) row

/-- The key and the value of an entry; a short key has its colon directly behind it. -/
theorem writesRows_entry {key value : Outline} (hk : IsKey anchors k key)
    (hv : IsWritable anchors k (isShortKey anchors key) value) (deep : d + 2 ≤ k) (row : p.AtRow d) :
    WritesRows d .blockMapping p
      (writePart anchors .entry (some d) value
        (if isShortKey anchors key then (writePart anchors .key (some d) key p).close [':']
        else ((writePart anchors .entry (some d) key (p.mark true ['?'])).indentTo d).mark true [':']))
      (.key :: (key.tokens anchors true true ++ .value :: value.tokens anchors true (!isShortKey anchors key))) := by
  obtain ⟨s, rfl, fits⟩ := hk
  have tokens : (Outline.scalar none .str s).tokens anchors true true = [.scalar (styleOf false .str s == .plain) s] :=
    rfl
  rw [tokens]
  by_cases short : isShortKey anchors (.scalar none .str s) = true
  · rw [if_pos short] at fits
    rw [if_pos short, short]
    have form : s ≠ [] ∧ isMultiline s = false := by
      simp only [isShortKey, Bool.and_eq_true, Bool.not_eq_true', List.isEmpty_eq_false_iff] at short
      exact ⟨short.1.2, short.2⟩
    rw [writePart_scalar (.inl rfl) fun _ => form]
    have gap : p.gap = [] := by simp [Sheet.gap, row.afterBlank]
    obtain ⟨u, text, adds⟩ := scalar_text (s := s) (k := d + 2) (by decide : Tag.str ≠ .binary)
      (by simp) false (by simp) p
    obtain ⟨printable, width⟩ := scalar_line form.1 form.2 adds
    rw [gap, List.nil_append] at adds
    have colon := Sheet.adds_close [':'] (p.scalar (styleOf false .str s) false (d + 2) s)
    have whole := Sheet.Adds.trans adds.written colon
    obtain ⟨w, adds', part⟩ := hv .entry deep (fun _ => ⟨rfl, rfl⟩) (by decide) (colon.behind d)
    have rows := Rows.entry text printable (by omega) part
    exact ⟨u ++ ':' :: w, by simpa using Sheet.Adds.trans whole.written adds', rows⟩
  · have short : isShortKey anchors (.scalar none .str s) = false := by simpa using short
    rw [if_neg (by simp [short])] at fits
    rw [if_neg (by simp [short]), short]
    obtain ⟨written, behind⟩ := row.mark '?'
    obtain ⟨w, adds, part⟩ := writes_scalar .entry (by decide) behind (.inl rfl)
      (fits.imp_left fun h => by omega)
    obtain ⟨line, row'⟩ := Sheet.indentTo_adds adds d
    obtain ⟨written', behind'⟩ := row'.mark ':'
    obtain ⟨w', adds', part'⟩ := hv .entry deep (by simp [short]) (by decide) behind'
    have rows := Rows.entry_marked part part'
    refine ⟨'?' :: (w ++ '\n' :: (replicate d ' ' ++ ':' :: w')), ⟨?_, adds'.afterBlank, adds'.atMargin⟩, rows⟩
    rw [adds'.written, written', line, adds.written, written]
    simp

theorem writesRows_entries {entries : List (Outline × Outline)} (hk : ∀ e ∈ entries, IsKey anchors k e.1)
    (hv : ∀ e ∈ entries, IsWritable anchors k (isShortKey anchors e.1) e.2) (deep : d + 2 ≤ k)
    (nonempty : entries ≠ []) (row : (p.indentTo d).AtRow d) :
    WritesRows d .blockMapping (p.indentTo d) (writeEntries anchors d entries p) (entryTokens anchors entries) := by
  induction entries generalizing p with
  | nil => exact absurd rfl nonempty
  | cons e rest ih =>
    obtain ⟨key, value⟩ := e
    obtain ⟨hereKey, otherKeys⟩ := List.forall_mem_cons.1 hk
    obtain ⟨hereValue, otherValues⟩ := List.forall_mem_cons.1 hv
    have first := writesRows_entry hereKey hereValue deep row
    rw [writeEntries, entryTokens]
    cases rest with
    | nil => simpa [writeEntries, entryTokens] using first
    | cons e' rest =>
      have whole := first.line fun row => ih otherKeys otherValues (by simp) row
      simpa using whole

end Rows

theorem isWritable_sequence (named : anchors.Named) {k : Nat} {flush : Bool} {items : List Outline}
    (h : ∀ o ∈ items, IsWritable anchors (if flush then k else k + 2) false o) (number : Option Nat) :
    IsWritable anchors k flush (.sequence number .seq items) := by
  intro i role isMark p deep flushed _ behind
  let write (p : Sheet) : Sheet :=
    if items.isEmpty then p.mark false ['[', ']']
    else writeItems anchors (if role == .entry && !p.atMargin then i else i + 2) items p
  let toks (isMark : Bool) : List Token :=
    if items.isEmpty then [.flowSequence, .flowSequenceEnd]
    else if role == .entry && !isMark then itemTokens anchors items
    else .blockSequence :: (itemTokens anchors items ++ [.blockEnd])
  rw [Outline.tokens]
  refine writes_anchor named behind write toks fun isMark' p before behind => ?_
  by_cases empty : items.isEmpty = true
  · simp only [write, toks, if_pos empty]
    exact writes_leaf behind (p.adds_mark _) .emptySequence
  · have nonempty : items ≠ [] := by simpa using empty
    have margin : p.atMargin = isMark' := by
      have place := behind.place
      cases isMark' with
      | true => exact place.1
      | false => exact place
    simp only [write, toks, if_neg empty, margin]
    by_cases flat : (role == .entry && !isMark') = true
    · obtain rfl : isMark' = false := by simpa using (Bool.and_eq_true_iff.1 flat).2
      rw [if_pos flat, if_pos flat]
      exact writes_flush behind fun row => writesRows_items h (by split_ifs <;> omega) nonempty row
    · have indented : flush = false := by
        rw [Bool.eq_false_iff]
        intro e
        obtain ⟨rfl, rfl⟩ := flushed e
        exact flat (by cases isMark' <;> simp_all)
      rw [if_neg flat, if_neg flat]
      rw [indented] at h
      exact writes_block behind fun row => writesRows_items h (by simpa using deep) nonempty row

theorem isWritable_mapping (named : anchors.Named) {k : Nat} {entries : List (Outline × Outline)}
    (keys : ∀ e ∈ entries, IsKey anchors (k + 2) e.1)
    (values : ∀ e ∈ entries, IsWritable anchors (k + 2) (isShortKey anchors e.1) e.2) (flush : Bool)
    (number : Option Nat) : IsWritable anchors k flush (.mapping number .map entries) := by
  intro i role isMark p deep _ _ behind
  let write (p : Sheet) : Sheet :=
    if entries.isEmpty then p.mark false ['\x7b', '\x7d'] else writeEntries anchors (i + 2) entries p
  let toks (_ : Bool) : List Token :=
    if entries.isEmpty then [.flowMapping, .flowMappingEnd]
    else .blockMapping :: (entryTokens anchors entries ++ [.blockEnd])
  rw [Outline.tokens]
  refine writes_anchor named behind write toks fun isMark' p _ behind => ?_
  by_cases empty : entries.isEmpty = true
  · simp only [write, toks, if_pos empty]
    exact writes_leaf behind (p.adds_mark _) .emptyMapping
  · have nonempty : entries ≠ [] := by simpa using empty
    simp only [write, toks, if_neg empty]
    exact writes_block behind fun row => writesRows_entries keys values (by omega) nonempty row

/-- A sound outline is written as what can be read. -/
theorem Sound.isWritable (named : anchors.Named) {k : Nat} {flush : Bool} {o : Outline} (h : Sound anchors k flush o) :
    IsWritable anchors k flush o := by
  induction h with
  | scalar typed narrow =>
    intro i role isMark p deep _ inner behind
    exact writes_scalar role inner behind typed (narrow.imp_left fun h => by omega)
  | reference found =>
    intro i role isMark p _ _ _ behind
    obtain ⟨name, found⟩ := Option.isSome_iff_exists.1 found
    obtain ⟨nonempty, word⟩ := named _ name found
    rw [writePart, Outline.tokens, anchorOf, Option.bind_some, found, Option.getD_some]
    exact writes_leaf behind (p.adds_mark _) (.reference word nonempty)
  | sequence _ ih => exact isWritable_sequence named ih _
  | mapping keys _ ih => exact isWritable_mapping named keys ih _ _

end Writing

/-! ## The whole text -/

/-- A text is read from its first character on, unless that is a byte order mark. -/
theorem start_ofText {s : List Char} (written : ∀ x ∈ s, IsWritten x) :
    (Input.ofText s).text = s ∧ Cursor.start (.ofText s) = ⟨s, none, 0, 0, 0, s.length⟩ := by
  have readable : s.all isReadable = true := List.all_eq_true.2 fun x hx => (written x hx).isReadable
  have input : Input.ofText s = ⟨s, none⟩ := by
    simp only [Input.ofText, Input.ofReadable, readable, if_true, List.append_nil]
  rw [input]
  refine ⟨rfl, ?_⟩
  cases s with
  | nil => rfl
  | cons x s =>
    have mark : x ≠ '\uFEFF' := by
      rintro rfl
      exact absurd (written '\uFEFF' (by simp)) (by unfold IsWritten; decide)
    simp [Cursor.start, mark]

theorem tokensOf_rows {w : List Char} {toks : List Token} (rows : Rows 0 .blockMapping w toks) :
    tokensOf (.ofText (w ++ ['\n'])) = .blockMapping :: (toks ++ [.blockEnd, .streamEnd]) := by
  have written : ∀ x ∈ w ++ ['\n'], IsWritten x :=
    List.forall_mem_append.2 ⟨rows.written, List.forall_mem_singleton.2 (.inl rfl)⟩
  obtain ⟨text, start⟩ := start_ofText written
  let l := Layout.start (.ofText (w ++ ['\n']))
  have here : l.At (w ++ '\n' :: (replicate 0 ' ' ++ [])) 0 [] [-1] := by
    refine ⟨?_, ?_, rfl, rfl, rfl, rfl, ?_, ?_⟩
    all_goals simp [l, Layout.start, start, Cursor.Fits]
  have opens : Opens 0 [] := ⟨⟨by simp, rfl⟩, fun _ => rfl⟩
  have arrives : l.Arrives (w ++ '\n' :: (replicate 0 ' ' ++ [])) 0 [] [-1] :=
    Layout.arrives_of_skip (Layout.skipToPiece_here here (rows.opens _).toBegins) here rfl (by simp [l, Layout.start])
  obtain ⟨b, leads, ends⟩ := rows.read arrives (by decide) opens (Nat.le_refl 0)
  have enough : l.cursor.rest.length < (Input.ofText (w ++ ['\n'])).text.length + 1 := by
    rw [here.rest, text]
    simp
  obtain ⟨fuel, more, run⟩ := Layout.run_of_leads leads enough
  rw [tokensOf, run, Layout.run_end ends (by omega)]
  simp [opening, opened, closing, remaining]

/-- The tokens of a dictionary are those of its entries between the start and the end of the block. -/
theorem tokensOf_write {entries : List (Outline × Outline)} {anchors : Anchors} (nonempty : entries ≠ [])
    (needed : (Outline.mapping none .map entries).anchors = anchors) (named : anchors.Named)
    (sound : Sound anchors 0 false (.mapping none .map entries)) :
    tokensOf (.ofText (Outline.mapping none .map entries).write) =
      .blockMapping :: (entryTokens anchors entries ++ [.blockEnd, .streamEnd]) := by
  cases sound with
  | mapping keys values =>
    have row : (Sheet.blank.indentTo 0).AtRow 0 := ⟨rfl, rfl, rfl⟩
    obtain ⟨w, adds, rows⟩ := writesRows_entries keys (fun e he => (values e he).isWritable named) (Nat.le_refl 2)
      nonempty row
    have text : (Outline.mapping none .map entries).write = w ++ ['\n'] := by
      have empty : entries.isEmpty = false := List.isEmpty_eq_false_iff.2 nonempty
      have whole : writePart anchors .item none (.mapping none .map entries) .blank =
          writeEntries anchors 0 entries .blank := by
        simp [writePart, Sheet.anchor, anchorOf, empty, inner]
      rw [Outline.write, needed, whole, (Sheet.indentTo_adds adds 0).1, adds.written]
      simp [Sheet.indentTo, Sheet.blank]
    rw [text, tokensOf_rows rows]

end ZincModel.Yaml
