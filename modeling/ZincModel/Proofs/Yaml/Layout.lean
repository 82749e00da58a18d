import Mathlib.Logic.Relation
import ZincModel.Proofs.Yaml.Plain

/-!
# The reading of tokens, piece by piece

`At` says how far the reading of tokens outside of brackets has come: what is left of the text, the column, the
tokens so far, and the columns of the open blocks. Going to the next piece ends the blocks that are indented by
more than its column (`approach_line`). From piece to piece the reading of tokens `Leads` to a later place, and
from there to the tokens of the whole text (`run_of_leads`).
-/

namespace ZincModel.Yaml

open Json (IsPrintable)
open List (replicate)

/-! ## Blocks -/

/-- The columns of the blocks that stay open at a column; the outermost one always does. -/
def remaining (column : Int) : List Int → List Int
  | i :: o :: outer => if column < i then remaining column (o :: outer) else i :: o :: outer
  | blocks => blocks

/-- The tokens that end the other blocks. -/
def closing (column : Int) : List Int → List Token
  | i :: o :: outer => if column < i then .blockEnd :: closing column (o :: outer) else []
  | _ => []

theorem remaining_of_le {column i : Int} (h : i ≤ column) (outer : List Int) :
    remaining column (i :: outer) = i :: outer := by
  cases outer with
  | nil => rfl
  | cons o outer => rw [remaining, if_neg (by omega)]

theorem closing_of_le {column i : Int} (h : i ≤ column) (outer : List Int) : closing column (i :: outer) = [] := by
  cases outer with
  | nil => rfl
  | cons o outer => rw [closing, if_neg (by omega)]

theorem remaining_of_lt {column i o : Int} (h : column < i) (outer : List Int) :
    remaining column (i :: o :: outer) = remaining column (o :: outer) := by
  rw [remaining, if_pos h]

theorem closing_of_lt {column i o : Int} (h : column < i) (outer : List Int) :
    closing column (i :: o :: outer) = .blockEnd :: closing column (o :: outer) := by
  rw [closing, if_pos h]

theorem closing_append (column : Int) (blocks : List Int) (tokens : List Token) :
    closing column blocks ++ .blockEnd :: tokens = .blockEnd :: (closing column blocks ++ tokens) := by
  induction blocks with
  | nil => rfl
  | cons i blocks ih =>
    cases blocks with
    | nil => rfl
    | cons o outer =>
      by_cases lower : column < i
      · rw [closing_of_lt lower, List.cons_append, ih, List.cons_append]
      · rw [closing_of_le (by omega)]
        rfl

/-! ## Places -/

namespace Layout

/-- The place of a layout outside of brackets. -/
structure At (l : Layout) (s : List Char) (column : Nat) (tokens : List Token) (blocks : List Int) : Prop where
  rest : l.cursor.rest = s
  column : l.cursor.column = column
  tokens : l.tokens = tokens
  blocks : l.indent :: l.outer = blocks
  count : l.count = l.tokens.length
  depth : l.depth = 0
  beyond : l.cursor.beyond = none
  fits : l.cursor.Fits

/-- A new line or a mark has just been met: a key can come next, and no piece before is one. -/
structure Fresh (l : Layout) : Prop where
  keyAllowed : l.keyAllowed = true
  possible : l.possible = []

/-- No piece before has to be a key. -/
def Harmless (l : Layout) : Prop := ∀ k ∈ l.possible, k.required = false ∧ k.start.line ≤ l.cursor.line

theorem Fresh.harmless {l : Layout} (h : l.Fresh) : l.Harmless := by
  intro k hk
  rw [h.possible] at hk
  cases hk

variable {l : Layout} {s t u : List Char} {column : Nat} {tokens : List Token} {blocks : List Int}

theorem At.inFlow (h : l.At s column tokens blocks) : l.inFlow = false := by
  simp [Layout.inFlow, h.depth]

theorem dropStale_eq (free : ∀ k ∈ l.possible, isStale l.cursor k = true → k.required = false) :
    l.dropStale = .ok { l with possible := l.possible.filter (!isStale l.cursor ·) } := by
  rw [dropStale, if_neg]
  simpa using free

theorem dropKey_eq (free : ∀ k ∈ l.possible, k.required = false) : l.dropKey = .ok l.forgetKey := by
  rw [dropKey, if_neg]
  cases found : l.possibleKey? with
  | none => simp
  | some k => simpa using free k (List.mem_of_find?_eq_some found)

/-! ## Going to the next piece -/

theorem endBlocks_eq (h : l.At s column tokens blocks) (column' : Int) :
    (l.endBlocks column').At s column (closing column' blocks ++ tokens) (remaining column' blocks) ∧
      (l.endBlocks column').keyAllowed = l.keyAllowed ∧ (l.endBlocks column').possible = l.possible ∧
      (l.endBlocks column').cursor = l.cursor := by
  have go (outer : List Int) : ∀ (l : Layout) (tokens : List Token), l.At s column tokens (l.indent :: l.outer) →
      (endBlocks.go column' l outer).At s column (closing column' (l.indent :: outer) ++ tokens)
          (remaining column' (l.indent :: outer)) ∧
        (endBlocks.go column' l outer).keyAllowed = l.keyAllowed ∧
        (endBlocks.go column' l outer).possible = l.possible ∧ (endBlocks.go column' l outer).cursor = l.cursor := by
    induction outer with
    | nil =>
      intro l tokens h
      exact ⟨⟨h.rest, h.column, h.tokens, rfl, h.count, h.depth, h.beyond, h.fits⟩, rfl, rfl, rfl⟩
    | cons o outer ih =>
      intro l tokens h
      by_cases lower : column' < l.indent
      · have next := ih { l.add .blockEnd with indent := o } (.blockEnd :: tokens)
          ⟨h.rest, h.column, by simp [add, h.tokens], rfl, by simp [add, h.count], h.depth, h.beyond, h.fits⟩
        rw [closing_append] at next
        rw [closing_of_lt lower, remaining_of_lt lower, endBlocks.go, if_pos lower]
        exact next
      · rw [closing_of_le (by omega), remaining_of_le (by omega), endBlocks.go, if_neg lower]
        exact ⟨⟨h.rest, h.column, h.tokens, rfl, h.count, h.depth, h.beyond, h.fits⟩, rfl, rfl, rfl⟩
  rw [endBlocks, h.inFlow, ← h.blocks]
  exact go l.outer l tokens ⟨h.rest, h.column, h.tokens, rfl, h.count, h.depth, h.beyond, h.fits⟩

theorem skipToPiece_spaces {n : Nat} (h : l.cursor.rest = replicate n ' ' ++ t) (begins : Begins t) (fuel : Nat) :
    l.skipToPiece (fuel + 1) = { l with cursor := l.cursor.advance n } := by
  have rest : (l.cursor.advance n).rest = t := by rw [Cursor.advance_spaces h]
  have spaces := Cursor.skipSpaces_eq h begins.ne_space
  have comment : (l.cursor.advance n).skipComment = l.cursor.advance n := by
    apply Cursor.skipComment_eq
    rw [rest]
    simpa [atComment] using begins.comment
  have stays : (l.cursor.advance n).lineBreak? = none :=
    Cursor.lineBreak?_eq_none fun x hx => begins.isBreak (rest ▸ hx)
  simp only [skipToPiece, spaces, comment, stays]

/-- A new line can start with a key. -/
theorem skipToPiece_line {d : Nat} (h : l.cursor.rest = '\n' :: (replicate d ' ' ++ t)) (begins : Begins t)
    (outside : l.inFlow = false) (fuel : Nat) :
    l.skipToPiece (fuel + 2) = { l with cursor := l.cursor.advance (d + 1), keyAllowed := true } := by
  have spaces := Cursor.skipSpaces_eq (c := l.cursor) (n := 0) h (by simp)
  have comment : l.cursor.skipComment = l.cursor := Cursor.skipComment_eq (by simp [h])
  have rest : l.cursor.next.rest = replicate d ' ' ++ t := by simp [h]
  rw [skipToPiece, spaces, Cursor.advance_zero, comment, Cursor.lineBreak?_newline h]
  dsimp only
  rw [skipToPiece_spaces rest begins, outside, Bool.not_false, Bool.or_true]
  rfl

theorem approach_of_skip {m : Layout} (skip : l.skipToPiece l.cursor.bound = m) (h : m.At t column tokens blocks)
    (free : ∀ k ∈ m.possible, isStale m.cursor k = true → k.required = false) :
    ∃ a, l.approach = .ok a ∧ a.At t column (closing column blocks ++ tokens) (remaining column blocks) ∧
      a.keyAllowed = m.keyAllowed ∧ a.possible = m.possible.filter (!isStale m.cursor ·) ∧ a.cursor = m.cursor := by
  have ends := endBlocks_eq (l := { m with possible := m.possible.filter (!isStale m.cursor ·) })
    ⟨h.rest, h.column, h.tokens, h.blocks, h.count, h.depth, h.beyond, h.fits⟩ column
  refine ⟨_, ?_, ends⟩
  simp only [approach, skip, Cursor.look_eq h.beyond, dropStale_eq free, Except.ok_bind, Except.pure_eq]
  rw [h.column]

/-- The next piece is met at this place, in a new line or behind a mark. -/
def Arrives (l : Layout) (s : List Char) (column : Nat) (tokens : List Token) (blocks : List Int) : Prop :=
  ∃ a, l.approach = .ok a ∧ a.At s column tokens blocks ∧ a.Fresh

theorem isStale_of_lt {c : Cursor} {k : PossibleKey} (h : k.start.line < c.line) : isStale c k = true := by
  have differ : k.start.line ≠ c.line := by omega
  simp [isStale, differ]

/-- Blocks are ended by what stands further to the left, also if it has been reached already. -/
theorem arrives_of_skip {m : Layout} (skip : l.skipToPiece l.cursor.bound = m) (h : m.At t column tokens blocks)
    (allowed : m.keyAllowed = true) (behind : ∀ k ∈ m.possible, k.required = false ∧ k.start.line < m.cursor.line) :
    l.Arrives t column (closing column blocks ++ tokens) (remaining column blocks) := by
  obtain ⟨a, approach, ends, allowed', possible, -⟩ := approach_of_skip skip h fun k hk _ => (behind k hk).1
  refine ⟨a, approach, ends, allowed'.trans allowed, possible.trans (List.filter_eq_nil_iff.2 fun k hk => ?_)⟩
  simp [isStale_of_lt (behind k hk).2]

theorem arrives_line {d : Nat} (h : l.At ('\n' :: (replicate d ' ' ++ t)) column tokens blocks) (begins : Begins t)
    (harmless : l.Harmless) : l.Arrives t d (closing d blocks ++ tokens) (remaining d blocks) := by
  have skip : l.skipToPiece l.cursor.bound = { l with cursor := l.cursor.advance (d + 1), keyAllowed := true } := by
    obtain ⟨n, hn⟩ : ∃ n, l.cursor.bound = n + 2 := by
      have fits := h.fits
      simp only [Cursor.Fits, h.rest, List.length_cons] at fits
      exact ⟨l.cursor.size - 1, by simp only [Cursor.bound]; omega⟩
    rw [hn]
    exact skipToPiece_line h.rest begins h.inFlow n
  have moved := Cursor.advance_line h.rest
  refine arrives_of_skip skip ⟨?_, ?_, h.tokens, h.blocks, h.count, h.depth, ?_, h.fits.advance _⟩ rfl fun k hk => ?_
  · rw [moved]
  · rw [moved]
  · rw [moved]
    exact h.beyond
  · have line : l.cursor.line < (l.cursor.advance (d + 1)).line := by
      rw [moved]
      exact Nat.lt_succ_self _
    exact ⟨(harmless k hk).1, Nat.lt_of_le_of_lt (harmless k hk).2 line⟩

theorem skipToPiece_here (h : l.At t column tokens blocks) (begins : Begins t) :
    l.skipToPiece l.cursor.bound = l := by
  rw [Cursor.bound, skipToPiece_spaces (n := 0) (by simpa using h.rest) begins]
  rfl

/-- Behind a single blank the next piece stands in the same line. -/
theorem approach_space {i : Int} {outer : List Int} (h : l.At (' ' :: t) column tokens (i :: outer))
    (begins : Begins t) (within : i ≤ column + 1) (harmless : l.Harmless) :
    ∃ a, l.approach = .ok a ∧ a.At t (column + 1) tokens (i :: outer) ∧ a.Harmless ∧
      a.keyAllowed = l.keyAllowed ∧ (l.possible = [] → a.possible = []) := by
  have skip : l.skipToPiece l.cursor.bound = { l with cursor := l.cursor.advance 1 } := by
    rw [Cursor.bound, skipToPiece_spaces (n := 1) h.rest begins]
  have moved := Cursor.advance_spaces (c := l.cursor) (n := 1) h.rest
  have behind : { l with cursor := l.cursor.advance 1 }.At t (column + 1) tokens (i :: outer) :=
    ⟨by rw [moved], by rw [moved, ← h.column], h.tokens, h.blocks, h.count, h.depth, by rw [moved]; exact h.beyond,
      h.fits.advance _⟩
  obtain ⟨a, approach, ends, allowed, possible, cursor⟩ := approach_of_skip skip behind fun k hk _ => (harmless k hk).1
  rw [closing_of_le (by push_cast; omega), remaining_of_le (by push_cast; omega)] at ends
  refine ⟨a, approach, ends, fun k hk => ?_, allowed, fun e => by rw [possible]; simp [e]⟩
  rw [possible] at hk
  obtain ⟨required, line⟩ := harmless k (List.mem_filter.1 hk).1
  have same : a.cursor.line = l.cursor.line := by rw [cursor]; simp only [moved]
  exact ⟨required, same ▸ line⟩

/-! ## Less and less is left -/

theorem length_skipComment (c : Cursor) : c.skipComment.rest.length ≤ c.rest.length := by
  unfold Cursor.skipComment
  split
  · simp [Cursor.skipWhile, Cursor.takeWhile]
  · exact Nat.le_refl _

theorem length_lineBreak? {c c' : Cursor} {x : Char} (h : c.lineBreak? = some (x, c')) :
    c'.rest.length ≤ c.rest.length := by
  unfold Cursor.lineBreak? at h
  split at h
  · cases h
    simp
  · split_ifs at h <;> cases h <;> simp
  · cases h

theorem length_skipToPiece (fuel : Nat) (l : Layout) :
    (l.skipToPiece fuel).cursor.rest.length ≤ l.cursor.rest.length := by
  induction fuel generalizing l with
  | zero => exact Nat.le_refl _
  | succ fuel ih =>
    have spaces : l.cursor.skipSpaces.skipComment.rest.length ≤ l.cursor.rest.length :=
      Nat.le_trans (length_skipComment _) (by simp [Cursor.skipSpaces, Cursor.skipWhile, Cursor.takeWhile])
    rw [skipToPiece]
    split
    · exact spaces
    · next e => exact Nat.le_trans (ih _) (Nat.le_trans (length_lineBreak? e) spaces)

theorem cursor_endBlocks (column : Int) (l : Layout) : (l.endBlocks column).cursor = l.cursor := by
  have go (outer : List Int) : ∀ l : Layout, (endBlocks.go column l outer).cursor = l.cursor := by
    induction outer with
    | nil => exact fun l => rfl
    | cons o outer ih =>
      intro l
      rw [endBlocks.go]
      split_ifs
      · exact ih _
      · rfl
  unfold endBlocks
  split_ifs
  · rfl
  · exact go _ l

theorem length_approach {a : Layout} (h : l.approach = .ok a) : a.cursor.rest.length ≤ l.cursor.rest.length := by
  obtain ⟨-, -, h⟩ := Except.bind_eq_ok.1 h
  obtain ⟨m, drop, h⟩ := Except.bind_eq_ok.1 h
  unfold dropStale at drop
  split_ifs at drop
  cases drop
  cases h
  rw [cursor_endBlocks]
  exact length_skipToPiece _ l

/-! ## From piece to piece -/

/-- The next piece is read, up to the place `l'`. -/
def Piece (l l' : Layout) : Prop :=
  ∃ a, l.approach = .ok a ∧ a.cursor.rest ≠ [] ∧ a.addNext = .ok l' ∧ l'.cursor.beyond = none ∧
    l'.cursor.rest.length < l.cursor.rest.length

/-- Some pieces are read, up to the place `l'`. -/
abbrev Leads : Layout → Layout → Prop := Relation.ReflTransGen Piece

theorem leads_piece {b : Layout} (approach : l.approach = .ok b) (h : b.At (u ++ t) column tokens blocks)
    (some : u ≠ []) {l' : Layout} (next : b.addNext = .ok l') (rest : l'.cursor.rest.length ≤ t.length)
    (beyond : l'.cursor.beyond = none) : l.Leads l' := by
  have shorter := length_approach approach
  have positive := List.length_pos_iff.2 some
  rw [h.rest, List.length_append] at shorter
  refine .single ⟨b, approach, ?_, next, beyond, by omega⟩
  rw [h.rest]
  simp [some]

theorem run_of_leads {b : Layout} (h : l.Leads b) {fuel : Nat} (enough : l.cursor.rest.length < fuel) :
    ∃ fuel', b.cursor.rest.length < fuel' ∧ l.run fuel = b.run fuel' := by
  induction h using Relation.ReflTransGen.head_induction_on generalizing fuel with
  | refl => exact ⟨fuel, enough, rfl⟩
  | head piece _ ih =>
    obtain ⟨a, approach, more, next, beyond, shorter⟩ := piece
    obtain ⟨fuel, rfl⟩ : ∃ n, fuel = n + 1 := ⟨fuel - 1, by omega⟩
    obtain ⟨fuel', enough', run⟩ := @ih fuel (by omega)
    refine ⟨fuel', enough', ?_⟩
    have some : a.cursor.rest.isEmpty = false := List.isEmpty_eq_false_iff.2 more
    rw [← run, Layout.run]
    simp only [step, approach, some, next, Cursor.look_eq beyond, Except.ok_bind, Bool.false_eq_true, if_false,
      Except.pure_eq]

/-- At the end of the text all blocks are ended. -/
theorem run_end (h : l.Arrives [] column tokens blocks) {fuel : Nat} (enough : 0 < fuel) :
    l.run fuel = .streamEnd :: (closing (-1) blocks ++ tokens) := by
  obtain ⟨a, approach, here, fresh⟩ := h
  obtain ⟨fuel, rfl⟩ : ∃ n, fuel = n + 1 := ⟨fuel - 1, by omega⟩
  obtain ⟨ends, -, possible, -⟩ := endBlocks_eq here (-1)
  have drop : (a.endBlocks (-1)).dropKey = .ok (a.endBlocks (-1)).forgetKey := by
    refine dropKey_eq ?_
    simp [possible, fresh.possible]
  have last : (a.endBlocks (-1)).forgetKey.tokens = closing (-1) blocks ++ tokens := ends.tokens
  have empty : a.cursor.rest.isEmpty = true := by rw [here.rest]; rfl
  rw [Layout.run]
  simp only [step, approach, empty, leaveDocument, drop, Except.ok_bind, if_true, Except.pure_eq, last]

end Layout

end ZincModel.Yaml
