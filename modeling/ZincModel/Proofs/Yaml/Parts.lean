import ZincModel.Proofs.Yaml.Styles

/-!
# Parts and rows

A `Part` is what stands behind a mark, a key or an anchor, and `Rows` are the items or entries of a block. Both are
read as their tokens up to the next line. Parts are made of leaves, rows and anchors, and rows of parts, in the ways in
which an outline is written.
-/

namespace ZincModel.Yaml

open Json (IsPrintable)
open List (replicate)

/-! ## Reading up to the next line -/

namespace Layout

/-- Behind the tokens `toks` the next line is met, which may end blocks. -/
def Reads (l : Layout) (toks : List Token) (t : List Char) (column : Nat) (tokens : List Token) (blocks : List Int) :
    Prop :=
  ∃ b, l.Leads b ∧ b.Arrives t column (closing column blocks ++ (toks.reverse ++ tokens)) (remaining column blocks)

/-- A part of a block at the column `i` can start here, behind a mark or behind a text. -/
structure Behind (l : Layout) (i column : Nat) (isMark : Bool) : Prop where
  harmless : l.Harmless
  deep : i < column
  mark : isMark = true → l.Fresh ∧ column = i + 1

variable {l b : Layout} {s t : List Char} {toks toks' tokens : List Token} {blocks outer : List Int} {c d i : Nat}

theorem Fresh.behind (h : l.Fresh) : l.Behind i (i + 1) true := ⟨h.harmless, Nat.lt_succ_self i, fun _ => ⟨h, rfl⟩⟩

/-- Behind tokens that have been read the reading goes on. -/
theorem Reads.of_leads (toks toks' : List Token) (h : l.Leads b)
    (read : b.Reads toks' t c (toks.reverse ++ tokens) blocks) :
    l.Reads (toks ++ toks') t c tokens blocks := by
  obtain ⟨b', leads, arrives⟩ := read
  refine ⟨b', h.trans leads, ?_⟩
  rw [List.reverse_append, List.append_assoc]
  exact arrives

/-- Where the block of the next line is open, the next line goes on with it. -/
theorem Reads.same (h : l.Reads toks t d tokens (d :: outer)) :
    ∃ b, l.Leads b ∧ b.Arrives t d (toks.reverse ++ tokens) (d :: outer) := by
  obtain ⟨b, leads, arrives⟩ := h
  rw [closing_of_le (Int.le_refl _), remaining_of_le (Int.le_refl _)] at arrives
  exact ⟨b, leads, arrives⟩

end Layout

/-- A block that is opened is the innermost one. -/
theorem exists_opened {d : Nat} {i : Int} (h : i ≤ d) (outer : List Int) :
    ∃ outer', opened d (i :: outer) = (d : Int) :: outer' := by
  by_cases deeper : i < d
  · exact ⟨_, if_pos deeper⟩
  · obtain rfl : i = d := by omega
    exact ⟨_, if_neg deeper⟩

theorem opened_same (d : Nat) (outer : List Int) : opened d ((d : Int) :: outer) = (d : Int) :: outer :=
  if_neg (Int.lt_irrefl _)

theorem opening_same (t : Token) (d : Nat) (outer : List Int) : opening t d (d :: outer) = [] :=
  if_neg (Int.lt_irrefl _)

theorem opened_of_lt {d : Nat} {i : Int} (h : i < d) (outer : List Int) :
    opened d (i :: outer) = (d : Int) :: i :: outer :=
  if_pos h

theorem opening_of_lt {d : Nat} {i : Int} (h : i < d) (t : Token) (outer : List Int) :
    opening t d (i :: outer) = [t] := if_pos h

/-! ## Parts and rows -/

/-- The text `w` is a part of a block at the column `i`. -/
structure Part (i : Nat) (isMark : Bool) (w : List Char) (toks : List Token) : Prop where
  written : ∀ x ∈ w, IsWritten x
  gap : atGap w = true
  read : ∀ {l : Layout} {t : List Char} {c column : Nat} {tokens : List Token} {outer : List Int},
    l.At (w ++ '\n' :: (replicate c ' ' ++ t)) column tokens (i :: outer) → l.Behind i column isMark →
    Opens c t → c ≤ i → l.Reads toks t c tokens (i :: outer)

/-- The text `w` has items or entries of a block at the column `d`, the first of which starts there. -/
structure Rows (d : Nat) (o : Token) (w : List Char) (toks : List Token) : Prop where
  written : ∀ x ∈ w, IsWritten x
  opens : ∀ r, Opens d (w ++ '\n' :: r)
  read : ∀ {l : Layout} {t : List Char} {c : Nat} {tokens : List Token} {i : Int} {outer : List Int},
    l.Arrives (w ++ '\n' :: (replicate c ' ' ++ t)) d tokens (i :: outer) → i ≤ d → Opens c t → c ≤ d →
    l.Reads toks t c (opening o d (i :: outer) ++ tokens) (opened d (i :: outer))

theorem Part.atGap_append {i : Nat} {isMark : Bool} {w : List Char} {toks : List Token} (h : Part i isMark w toks)
    (r : List Char) : atGap (w ++ '\n' :: r) = true := by
  have gap := h.gap
  cases w with
  | nil => rfl
  | cons x w => exact gap

theorem isWritten_line (d : Nat) {w : List Char} (h : ∀ x ∈ w, IsWritten x) :
    ∀ x ∈ '\n' :: (replicate d ' ' ++ w), IsWritten x := by
  simp only [List.forall_mem_cons, List.forall_mem_append]
  exact ⟨.inl rfl, fun x hx => .inr (isPrintable_replicate d x hx), h⟩

namespace Part

variable {i : Nat} {isMark : Bool} {u w : List Char} {o : Token} {toks : List Token}

theorem leaf (h : Leaf i u toks) : Part i isMark (' ' :: u) toks where
  written := List.forall_mem_cons.2 ⟨.inr isPrintable_space, h.written⟩
  gap := rfl
  read := by
    intro l t c column tokens outer here behind opens inner
    obtain ⟨x, v, rfl, gap, comment⟩ := h.first
    have begins : Begins ((x :: v) ++ '\n' :: (replicate c ' ' ++ t)) :=
      ⟨fun y e => by cases e; exact gap, by simpa [atComment] using comment⟩
    have deep := behind.deep
    obtain ⟨a, approach, here', harmless, -⟩ := Layout.approach_space here begins (by omega) behind.harmless
    exact h.read approach here' harmless (by omega) opens inner

/-- Rows of a block that is opened, up to its end. -/
theorem reads_block (h : Rows (i + 2) o w toks) {l : Layout} {t : List Char} {c : Nat} {tokens : List Token}
    {outer : List Int} (arrives : l.Arrives (w ++ '\n' :: (replicate c ' ' ++ t)) (i + 2) tokens (i :: outer))
    (opens : Opens c t) (inner : c ≤ i) : l.Reads (o :: (toks ++ [.blockEnd])) t c tokens (i :: outer) := by
  have deeper : (i : Int) < (i + 2 : Nat) := by omega
  obtain ⟨b, leads, next⟩ := h.read arrives (by omega) opens (by omega)
  rw [opening_of_lt deeper, opened_of_lt deeper, closing_of_lt (by omega), remaining_of_lt (by omega),
    List.cons_append, ← closing_append] at next
  refine ⟨b, leads, ?_⟩
  simpa using next

/-- The block starts behind the mark. -/
theorem block_mark (h : Rows (i + 2) o w toks) : Part i true (' ' :: w) (o :: (toks ++ [.blockEnd])) where
  written := List.forall_mem_cons.2 ⟨.inr isPrintable_space, h.written⟩
  gap := rfl
  read := by
    intro l t c column tokens outer here behind opens inner
    obtain ⟨fresh, rfl⟩ := behind.mark rfl
    obtain ⟨a, approach, here', -, allowed, possible⟩ :=
      Layout.approach_space here (h.opens _).toBegins (by omega) behind.harmless
    have arrives : l.Arrives (w ++ '\n' :: (replicate c ' ' ++ t)) (i + 2) tokens (i :: outer) :=
      ⟨a, approach, here', allowed.trans fresh.keyAllowed, possible fresh.possible⟩
    exact reads_block h arrives opens inner

/-- The block starts in the next line. -/
theorem block_line (h : Rows (i + 2) o w toks) :
    Part i isMark ('\n' :: (replicate (i + 2) ' ' ++ w)) (o :: (toks ++ [.blockEnd])) where
  written := isWritten_line _ h.written
  gap := rfl
  read := by
    intro l t c column tokens outer here behind opens inner
    have arrives := Layout.arrives_line (by simpa using here) (h.opens _).toBegins behind.harmless
    rw [closing_of_le (by omega), remaining_of_le (by omega), List.nil_append] at arrives
    exact reads_block h arrives opens inner

/-- Rows in the next line go on with the block around them. -/
theorem flush (h : Rows i o w toks) : Part i isMark ('\n' :: (replicate i ' ' ++ w)) toks where
  written := isWritten_line _ h.written
  gap := rfl
  read := by
    intro l t c column tokens outer here behind opens inner
    have arrives := Layout.arrives_line (by simpa using here) (h.opens _).toBegins behind.harmless
    rw [closing_of_le (Int.le_refl _), remaining_of_le (Int.le_refl _), List.nil_append] at arrives
    have read := h.read arrives (Int.le_refl _) opens inner
    rwa [opening_same, opened_same] at read

/-- An anchor in front of a part. -/
theorem anchor (h : Part i false w toks) {name : List Char} (word : ∀ c ∈ name, isWord c = true)
    (nonempty : name ≠ []) : Part i isMark (' ' :: '&' :: (name ++ w)) (.anchor name :: toks) where
  written := by
    simp only [List.forall_mem_cons, List.forall_mem_append]
    exact ⟨.inr isPrintable_space, .inr (by decide), fun c hc => .inr (isPrintable_of_isWord (word c hc)), h.written⟩
  gap := rfl
  read := by
    intro l t c column tokens outer here behind opens inner
    have begins : Begins ('&' :: (name ++ (w ++ '\n' :: (replicate c ' ' ++ t)))) :=
      ⟨fun y e => by cases e; rfl, rfl⟩
    have deep := behind.deep
    obtain ⟨a, approach, here', harmless, -⟩ :=
      Layout.approach_space (t := '&' :: (name ++ (w ++ '\n' :: (replicate c ' ' ++ t)))) (by simpa using here) begins
        (by omega) behind.harmless
    have reads := readName_eq here'.rest word nonempty (h.atGap_append _) .anchor
    obtain ⟨b, piece, later, harmless', -⟩ := Layout.addPiece_at here' harmless (by push_cast; omega) reads
    have printable : ∀ x ∈ '&' :: name, IsPrintable x :=
      List.forall_mem_cons.2 ⟨by decide, fun c hc => isPrintable_of_isWord (word c hc)⟩
    have moved := Cursor.advance_printable (w := '&' :: name) here'.rest printable
    rw [List.length_cons] at moved
    have column' : (a.cursor.advance (name.length + 1)).column = column + 1 + (name.length + 1) := by
      rw [moved]
      simp [here'.column]
    have rest : ('&' :: (name ++ (w ++ '\n' :: (replicate c ' ' ++ t)))).drop (name.length + 1) =
        w ++ '\n' :: (replicate c ' ' ++ t) := by
      rw [List.drop_succ_cons, List.drop_left' rfl]
    rw [column', rest] at later
    have next := (Layout.addNext_anchor here' (.of_pos (by omega) _) rfl).trans piece
    have leads := Layout.leads_piece (u := '&' :: name) approach here' (by simp) next
      (Nat.le_of_eq (congrArg List.length later.rest)) later.beyond
    exact Layout.Reads.of_leads [.anchor name] _ leads
      (h.read later ⟨harmless', by omega, by simp⟩ opens inner)

end Part

namespace ScalarText

variable {k d : Nat} {s u : List Char} {isPlain : Bool}

/-- A character that is neither a blank nor a colon stands in a plain text itself. -/
theorem plain_cons {b : Bool} {c : Char} {v w : List Char} (h : PlainText k b s u) (e : u ++ ':' :: v = c :: w)
    (other : c ≠ ':' ∧ c ≠ ' ' ∧ c ≠ '\n') :
    ∃ s' u', s = c :: s' ∧ u' ++ ':' :: v = w ∧ PlainText k false s' u' := by
  cases h with
  | nil => exact absurd (List.cons.inj e).1.symm other.1
  | char _ _ text =>
    obtain ⟨rfl, rest⟩ := List.cons.inj e
    exact ⟨_, _, rfl, rest, text⟩
  | space => exact absurd (List.cons.inj e).1.symm other.2.1
  | fold => exact absurd (List.cons.inj e).1.symm other.2.2

/-- A key does not start like the mark of a document. -/
theorem not_document (h : ScalarText k s isPlain u) (v : List Char) :
    (u ++ ':' :: v).head? ≠ some '%' ∧ atDocumentMark (u ++ ':' :: v) = false := by
  cases h with
  | single => exact ⟨by simp, by simp [atDocumentMark, atDocumentStart, atDocumentEnd]⟩
  | double => exact ⟨by simp, by simp [atDocumentMark, atDocumentStart, atDocumentEnd]⟩
  | plain allowed nonempty text =>
    have form := PlainForm.of_allowsPlain allowed
    have thrice {c : Char} {w : List Char} (other : c ≠ ':' ∧ c ≠ ' ' ∧ c ≠ '\n')
        (e : u ++ ':' :: v = c :: c :: c :: w) : ∃ s', s = c :: c :: c :: s' := by
      obtain ⟨s₁, u₁, rfl, e₁, text₁⟩ := plain_cons text e other
      obtain ⟨s₂, u₂, rfl, e₂, text₂⟩ := plain_cons text₁ e₁ other
      obtain ⟨s₃, u₃, rfl, -, -⟩ := plain_cons text₂ e₂ other
      exact ⟨s₃, rfl⟩
    refine ⟨fun e => ?_, Bool.or_eq_false_iff.2 ⟨?_, ?_⟩⟩
    · obtain ⟨w, e⟩ := List.head?_eq_some_iff.1 e
      obtain ⟨s', -, rfl, -, -⟩ := plain_cons text e (by decide)
      exact Bool.noConfusion form.start
    · unfold atDocumentStart
      split
      · next e =>
        obtain ⟨s', rfl⟩ := thrice (by decide) e
        exact absurd form.dashes (by simp [List.isPrefixOf])
      · rfl
    · unfold atDocumentEnd
      split
      · next e =>
        obtain ⟨s', rfl⟩ := thrice (by decide) e
        exact absurd form.dots (by simp [List.isPrefixOf])
      · rfl

theorem inside (h : ScalarText k s isPlain u) (v : List Char) (d : Nat) : Layout.Inside d (u ++ ':' :: v) :=
  fun _ => h.not_document v

theorem opens (h : ScalarText (k + 2) s isPlain u) (v : List Char) (d : Nat) : Opens d (u ++ ':' :: v) := by
  obtain ⟨x, v', rfl, gap, comment⟩ := (Leaf.scalar h).first
  exact ⟨⟨fun y e => by cases e; exact gap, by simpa [atComment] using comment⟩, fun _ => (h.not_document v).2⟩

end ScalarText

namespace Rows

variable {d : Nat} {s u w w' : List Char} {o : Token} {toks toks' : List Token}

theorem append (h : Rows d o w toks) (h' : Rows d o w' toks') :
    Rows d o (w ++ '\n' :: (replicate d ' ' ++ w')) (toks ++ toks') where
  written := List.forall_mem_append.2 ⟨h.written, isWritten_line d h'.written⟩
  opens r := by simpa using h.opens _
  read := by
    intro l t c tokens i outer arrives within opens inner
    obtain ⟨outer', whole⟩ := exists_opened within outer
    have first := h.read (t := w' ++ '\n' :: (replicate c ' ' ++ t)) (by simpa using arrives) within (h'.opens _)
      (Nat.le_refl d)
    rw [whole] at first
    obtain ⟨b, leads, next⟩ := first.same
    have rest := h'.read next (Int.le_refl _) opens inner
    rw [opening_same, opened_same, List.nil_append] at rest
    rw [whole]
    exact Layout.Reads.of_leads _ _ leads rest

/-- What starts with a mark. -/
theorem opens_mark {x : Char} (first : isGap x = false ∧ x ≠ '#' ∧ x ≠ '%') (gap : atGap w = true) (d : Nat) :
    Opens d (x :: w) :=
  ⟨⟨fun y e => by cases e; exact first.1, by simpa [atComment] using first.2.1⟩,
    fun e => (Layout.inside_mark first.2.2 gap e).2⟩

theorem item (h : Part d true w toks) : Rows d .blockSequence ('-' :: w) (.item :: toks) where
  written := List.forall_mem_cons.2 ⟨.inr (by decide), h.written⟩
  opens r := opens_mark (by decide) (h.atGap_append r) d
  read := by
    intro l t c tokens i outer arrives within opens inner
    obtain ⟨outer', whole⟩ := exists_opened within outer
    obtain ⟨a, approach, here, fresh⟩ := arrives
    have gap := h.atGap_append (replicate c ' ' ++ t)
    obtain ⟨b, entry, later, allowed, none⟩ :=
      Layout.addEntry_eq here fresh (by decide) .blockSequence .item true
    have next := (Layout.addNext_item here (Layout.inside_mark (by decide) gap) rfl gap).trans entry
    have leads := Layout.leads_piece (u := ['-']) approach here (by simp) next
      (Nat.le_of_eq (congrArg List.length later.rest)) later.beyond
    rw [whole] at later ⊢
    exact Layout.Reads.of_leads [.item] _ leads
      (h.read later (Layout.Fresh.behind ⟨allowed, none⟩) opens inner)

/-- A key with a mark of its own, and its value behind another one. -/
theorem entry_marked (h : Part d true w toks) (h' : Part d true w' toks') :
    Rows d .blockMapping ('?' :: (w ++ '\n' :: (replicate d ' ' ++ ':' :: w')))
      (.key :: (toks ++ .value :: toks')) where
  written := by
    refine List.forall_mem_cons.2 ⟨.inr (by decide), List.forall_mem_append.2 ⟨h.written, isWritten_line d ?_⟩⟩
    exact List.forall_mem_cons.2 ⟨.inr (by decide), h'.written⟩
  opens r := by
    simpa using opens_mark (x := '?') (by decide) (h.atGap_append (replicate d ' ' ++ ':' :: (w' ++ '\n' :: r))) d
  read := by
    intro l t c tokens i outer arrives within opens inner
    obtain ⟨outer', whole⟩ := exists_opened within outer
    obtain ⟨a, approach, here, fresh⟩ := arrives
    let rest := ':' :: (w' ++ '\n' :: (replicate c ' ' ++ t))
    have here : a.At ('?' :: (w ++ '\n' :: (replicate d ' ' ++ rest))) d tokens (i :: outer) := by
      simpa [rest] using here
    have gap := h.atGap_append (replicate d ' ' ++ rest)
    obtain ⟨b, entry, later, allowed, none⟩ := Layout.addEntry_eq here fresh (by decide) .blockMapping .key true
    have next := (Layout.addNext_key here (Layout.inside_mark (by decide) gap) rfl gap).trans entry
    have leads := Layout.leads_piece (u := ['?']) approach here (by simp) next
      (Nat.le_of_eq (congrArg List.length later.rest)) later.beyond
    rw [whole] at later ⊢
    -- the value starts in the next line, in the same block
    have gap' := h'.atGap_append (replicate c ' ' ++ t)
    obtain ⟨m, leads', a', approach', here', fresh'⟩ :=
      (h.read later (Layout.Fresh.behind ⟨allowed, none⟩) (opens_mark (by decide) gap' d) (Nat.le_refl d)).same
    obtain ⟨b', entry', later', allowed', none'⟩ :=
      Layout.addEntry_eq here' fresh' (by decide) .blockMapping .value true
    have value : a'.addValue = .ok b' := by
      rw [Layout.addValue, Layout.possibleKey?, fresh'.possible, here'.inFlow]
      exact entry'
    have next' := (Layout.addNext_value here' (Layout.inside_mark (by decide) gap') rfl gap').trans value
    have leads'' := Layout.leads_piece (u := [':']) approach' here' (by simp) next'
      (Nat.le_of_eq (congrArg List.length later'.rest)) later'.beyond
    rw [opening_same, opened_same, List.nil_append] at later'
    have last := h'.read later' (Layout.Fresh.behind ⟨allowed', none'⟩) opens inner
    refine Layout.Reads.of_leads ([.key] ++ (toks ++ [.value])) toks'
      ((leads.trans leads').trans leads'') ?_ |> fun read => by simpa using read
    simpa using last

/-- A key within its line and its value behind it. -/
theorem entry {isPlain : Bool} (text : ScalarText (d + 2) s isPlain u) (printable : ∀ x ∈ u, IsPrintable x)
    (short : u.length ≤ 1024) (h : Part d false w toks) :
    Rows d .blockMapping (u ++ ':' :: w) (.key :: .scalar isPlain s :: .value :: toks) where
  written := by
    simp only [List.forall_mem_cons, List.forall_mem_append]
    exact ⟨fun x hx => .inr (printable x hx), .inr (by decide), h.written⟩
  opens r := by simpa using text.opens (w ++ '\n' :: r) d
  read := by
    intro l t c tokens i outer arrives within opens inner
    obtain ⟨outer', whole⟩ := exists_opened within outer
    obtain ⟨a, approach, here, fresh⟩ := arrives
    have here : a.At (u ++ ':' :: (w ++ '\n' :: (replicate c ' ' ++ t))) d tokens (i :: outer) := by simpa using here
    obtain ⟨b, leads, later, -, none⟩ := Layout.leads_key approach here fresh text printable short (by push_cast; omega)
      (Nat.succ_pos _) within (h.atGap_append _) (text.inside _ d)
    rw [whole] at later ⊢
    have harmless : b.Harmless := fun k hk => by
      rw [none] at hk
      cases hk
    exact Layout.Reads.of_leads [.key, .scalar isPlain s, .value] _ leads
      (h.read later ⟨harmless, by omega, by simp⟩ opens inner)

end Rows

end ZincModel.Yaml
