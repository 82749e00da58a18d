import ZincModel.Proofs.Yaml.Scanning

/-!
# What keeps a text from having tokens, piece by piece

The readers of directives, names and tags, and the steps from one piece to the next, stop where the readers of the
texts inside of them do. What is said about the blocks and keys on the way is about no fault, so that of all tokens of a
text only the last one can be about one (`tokensOf_faults`).
-/

namespace ZincModel.Yaml

open Except (Ends)
open Text (isDigit)

variable {s : Input} {c : Cursor}

/-- The token is about a piece of the text. -/
def Token.IsPiece : Token → Prop
  | .bad _ => False
  | _ => True

/-! ## Names and tags -/

theorem anchorName_scans (h : Within s c) : Scans s (fun _ => True) (anchorName c) := by
  have behind := h.takeWhile isWord
  unfold anchorName
  dsimp only
  split
  · exact .error behind.unexpected
  · exact .ok ⟨trivial, behind⟩

theorem escapedBytes_scans (h : Within s c) (fuel : Nat) : Scans s (fun _ => True) (escapedBytes fuel c) := by
  induction fuel generalizing c with
  | zero => exact .ok ⟨trivial, h⟩
  | succ fuel ih =>
    unfold escapedBytes
    split
    · refine (h.next.hexNumber 2).bind ?_
      rintro ⟨n, c₁⟩ ⟨-, h₁⟩
      refine (ih h₁).bind ?_
      rintro ⟨bytes, c₂⟩ ⟨-, h₂⟩
      exact .ok ⟨trivial, h₂⟩
    · exact .ok ⟨trivial, h⟩

theorem tagNameFrom_scans (h : Within s c) (fuel : Nat) : Scans s (fun _ => True) (tagNameFrom fuel c) := by
  induction fuel generalizing c with
  | zero => exact .ok ⟨trivial, h⟩
  | succ fuel ih =>
    unfold tagNameFrom
    split
    · exact .ok ⟨trivial, h⟩
    · split
      · refine (escapedBytes_scans h _).bind ?_
        rintro ⟨bytes, c₁⟩ ⟨-, h₁⟩
        dsimp only
        split
        · exact .error .yaml
        · refine (ih h₁).bind ?_
          rintro ⟨more, c₂⟩ ⟨-, h₂⟩
          exact .ok ⟨trivial, h₂⟩
      · split
        · exact (ih h.next).map fun _ h => h
        · exact .ok ⟨trivial, h⟩

theorem tagName_scans (h : Within s c) : Scans s (fun _ => True) (tagName c) := by
  unfold tagName
  refine (tagNameFrom_scans h _).bind ?_
  rintro ⟨name, after⟩ ⟨-, behind⟩
  dsimp only
  split
  · exact .error behind.unexpected
  · exact .ok ⟨trivial, behind⟩

theorem tagHandle_scans (h : Within s c) : Scans s (fun _ => True) (tagHandle c) := by
  unfold tagHandle
  split
  · exact .ok ⟨trivial, h.next⟩
  · have word := h.next.takeWhile isWord
    dsimp only
    split
    · exact .ok ⟨trivial, word.next⟩
    · exact .error word.unexpected
  · exact .error h.unexpected

theorem tagAt_scans (h : Within s c) : Scans s Token.IsPiece (tagAt c) := by
  have behind {handle : Option (List Char)} {name : List Char} {c' : Cursor} (h : Within s c') :
      Scans s Token.IsPiece (if atSpace c'.rest then .ok (.tag handle name, c') else .error .yaml) :=
    .ite (.ok ⟨trivial, h⟩) (.error .yaml)
  unfold tagAt
  split
  · refine (tagName_scans (h.advance 2)).bind ?_
    rintro ⟨name, c₁⟩ ⟨-, h₁⟩
    dsimp only
    split
    · exact behind h₁.next
    · exact .error h₁.unexpected
  · dsimp only
    split
    · exact behind h.next
    · have named (handle : List Char) {c' : Cursor} (h : Within s c') :
          Scans s Token.IsPiece (tagName c' >>= fun r =>
            if atSpace r.2.rest then .ok (.tag (some handle) r.1, r.2) else .error .yaml) := by
        refine (tagName_scans h).bind ?_
        rintro ⟨name, c''⟩ ⟨-, h⟩
        exact behind h
      split
      · refine (tagHandle_scans h).bind ?_
        rintro ⟨handle, c'⟩ ⟨-, h⟩
        exact named handle h
      · exact named _ h.next

/-! ## Directives -/

theorem versionNumber_scans (h : Within s c) : Scans s (fun _ => True) (versionNumber c) := by
  have behind := h.takeWhile isDigit
  unfold versionNumber
  dsimp only
  refine behind.look.bind fun _ _ => ?_
  split
  · exact .error .yaml
  · split
    · next long =>
      refine .error (.version ⟨long, (c.takeWhile isDigit).1, ?_, rfl, ?_⟩)
      · exact (List.takeWhile_prefix _).isInfix.trans h.rest.isInfix
      · exact List.all_eq_true.1 List.all_takeWhile
    · exact .ok ⟨trivial, behind⟩

theorem directive_scans (h : Within s c) : Scans s Token.IsPiece (directive c) := by
  have name := h.takeWhile isWord
  have behind {t : Token} {c' : Cursor} (piece : t.IsPiece) (h : Within s c') :
      Scans s Token.IsPiece (c'.skipLine >>= fun c => .ok (t, c)) :=
    h.skipLine.bind fun _ h => .ok ⟨piece, h⟩
  unfold directive
  dsimp only
  split
  · exact .error name.unexpected
  · split
    · refine (versionNumber_scans name.skipSpaces).bind ?_
      rintro ⟨major, c₁⟩ ⟨-, h₁⟩
      dsimp only
      split
      · exact .error h₁.unexpected
      · refine (versionNumber_scans h₁.next).bind ?_
        rintro ⟨minor, c₂⟩ ⟨-, h₂⟩
        dsimp only
        split
        · exact behind trivial h₂
        · exact .error .yaml
    · split
      · refine (tagHandle_scans name.skipSpaces).bind ?_
        rintro ⟨handle, c₁⟩ ⟨-, h₁⟩
        dsimp only
        split
        · exact .error h₁.unexpected
        · refine (tagName_scans h₁.skipSpaces).bind ?_
          rintro ⟨meaning, c₂⟩ ⟨-, h₂⟩
          dsimp only
          split
          · exact behind trivial h₂
          · exact .error .yaml
      · exact behind trivial (name.skipWhile _)

/-! ## From piece to piece -/

namespace Layout

/-- The reading is within the text, and all tokens so far are about its pieces. -/
structure Sound (s : Input) (l : Layout) : Prop where
  cursor : Within s l.cursor
  tokens : ∀ t ∈ l.tokens, t.IsPiece

variable {l : Layout} {t : Token}

/-- A step comes to a state that is sound, or is stopped. -/
abbrev Steps (s : Input) : Except Fault Layout → Prop := Ends (Unscanned s) (Sound s)

theorem sound_start (s : Input) : (start s).Sound s := ⟨.start s, by simp [start]⟩

namespace Sound

theorem add (h : l.Sound s) (piece : t.IsPiece) : (l.add t).Sound s :=
  ⟨h.cursor, List.forall_mem_cons.2 ⟨piece, h.tokens⟩⟩

theorem moved (h : l.Sound s) (inside : Within s c) : ({ l with cursor := c } : Layout).Sound s := ⟨inside, h.tokens⟩

theorem allow (h : l.Sound s) (b : Bool) : ({ l with keyAllowed := b } : Layout).Sound s := ⟨h.cursor, h.tokens⟩

theorem forgetKey (h : l.Sound s) : l.forgetKey.Sound s := ⟨h.cursor, h.tokens⟩

theorem addMark (h : l.Sound s) (piece : t.IsPiece) : (l.addMark t).Sound s :=
  (h.add piece).moved h.cursor.next

theorem insert (h : l.Sound s) (piece : t.IsPiece) (place : Nat) : (l.insert place t).Sound s := by
  refine ⟨h.cursor, fun u mem => ?_⟩
  rcases List.mem_append.1 mem with front | rest
  · exact h.tokens u (List.mem_of_mem_take front)
  · rcases List.mem_cons.1 rest with rfl | back
    · exact piece
    · exact h.tokens u (List.mem_of_mem_drop back)

theorem skipToPiece (h : l.Sound s) (fuel : Nat) : (l.skipToPiece fuel).Sound s := by
  induction fuel generalizing l with
  | zero => exact h
  | succ fuel ih =>
    have inside := h.cursor.skipSpaces.skipComment
    unfold Layout.skipToPiece
    dsimp only
    split
    · exact h.moved inside
    · next broken => exact ih ⟨inside.lineBreak? broken, h.tokens⟩

theorem dropStale (h : l.Sound s) : Steps s l.dropStale := by
  unfold Layout.dropStale
  split
  · exact .error .yaml
  · exact .ok ⟨h.cursor, h.tokens⟩

theorem dropKey (h : l.Sound s) : Steps s l.dropKey := by
  unfold Layout.dropKey
  split
  · exact .error .yaml
  · exact .ok ⟨h.cursor, h.tokens⟩

theorem noteKey (h : l.Sound s) : Steps s l.noteKey := by
  unfold Layout.noteKey
  split
  · exact h.dropKey.bind fun l h => .ok ⟨h.cursor, h.tokens⟩
  · exact .ok h

theorem endBlocks_go (h : l.Sound s) (column : Int) (outer : List Int) : (endBlocks.go column l outer).Sound s := by
  induction outer generalizing l with
  | nil => exact ⟨h.cursor, h.tokens⟩
  | cons o outer ih =>
    unfold endBlocks.go
    split
    · have ended := h.add (t := .blockEnd) trivial
      exact ih ⟨ended.cursor, ended.tokens⟩
    · exact ⟨h.cursor, h.tokens⟩

theorem endBlocks (h : l.Sound s) (column : Int) : (l.endBlocks column).Sound s := by
  unfold Layout.endBlocks
  split
  · exact h
  · exact h.endBlocks_go column _

theorem openBlock (h : l.Sound s) (piece : t.IsPiece) (column place : Nat) : (l.openBlock column place t).Sound s := by
  unfold Layout.openBlock
  split
  · exact ⟨h.cursor, (h.insert piece place).tokens⟩
  · exact h

/-- Inside of brackets no block is opened. -/
theorem openBlock_unless (h : l.Sound s) (piece : t.IsPiece) (column place : Nat) (inside : Bool) :
    (if inside then l else l.openBlock column place t).Sound s := by
  split
  · exact h
  · exact h.openBlock piece column place

theorem addEntry (h : l.Sound s) (opening t : Token) (opens : opening.IsPiece) (piece : t.IsPiece) (keyAllowed : Bool) :
    Steps s (l.addEntry opening t keyAllowed) := by
  unfold Layout.addEntry
  dsimp only
  split
  · exact .error .yaml
  · have opened := h.openBlock_unless opens l.cursor.column l.count l.inFlow
    exact (opened.allow keyAllowed).dropKey.bind fun _ h => .ok (h.addMark piece)

theorem addValue (h : l.Sound s) : Steps s l.addValue := by
  unfold Layout.addValue
  dsimp only
  split
  · next k _ =>
    have key := h.forgetKey.insert (t := .key) trivial k.place
    have opened := key.openBlock_unless (t := .blockMapping) trivial k.start.column k.place l.inFlow
    exact .ok ((opened.allow false).addMark trivial)
  · exact h.addEntry .blockMapping .value trivial trivial _

theorem openFlow (h : l.Sound s) (piece : t.IsPiece) : Steps s (l.openFlow t) :=
  h.noteKey.bind fun _ h => .ok (addMark ⟨h.cursor, h.tokens⟩ piece)

theorem closeFlow (h : l.Sound s) (piece : t.IsPiece) : Steps s (l.closeFlow t) :=
  h.dropKey.bind fun _ h => .ok (addMark ⟨h.cursor, h.tokens⟩ piece)

theorem addComma (h : l.Sound s) : Steps s l.addComma :=
  (h.allow true).dropKey.bind fun _ h => .ok (h.addMark trivial)

theorem addPiece (h : l.Sound s) {read : Cursor → Except Fault (Token × Cursor)}
    (reads : ∀ {c}, Within s c → Scans s Token.IsPiece (read c)) : Steps s (l.addPiece read) := by
  refine h.noteKey.bind fun l h => (reads h.cursor).bind ?_
  rintro ⟨t, c⟩ ⟨piece, inside⟩
  exact .ok ⟨inside, (h.add piece).tokens⟩

theorem addPlain (h : l.Sound s) : Steps s l.addPlain :=
  h.noteKey.bind fun _ h => .ok ⟨plainText_within h.cursor, (h.add (t := .scalar true _) trivial).tokens⟩

theorem addBlockText (h : l.Sound s) (fold : Bool) : Steps s (l.addBlockText fold) := by
  refine (h.allow true).dropKey.bind fun l h => (blockText_scans h.cursor.next fold l.indent).bind ?_
  rintro ⟨text, c⟩ ⟨-, inside⟩
  exact .ok ((h.add (t := .scalar false text) trivial).moved inside)

theorem leaveDocument (h : l.Sound s) : Steps s l.leaveDocument :=
  (h.endBlocks (-1)).dropKey.bind fun _ h => .ok ⟨h.cursor, h.tokens⟩

theorem addDocumentMark (h : l.Sound s) (piece : t.IsPiece) : Steps s (l.addDocumentMark t) :=
  h.leaveDocument.bind fun _ h => .ok ((h.add piece).moved (h.cursor.advance 3))

theorem addDirective (h : l.Sound s) : Steps s l.addDirective := by
  refine h.leaveDocument.bind fun l h => (directive_scans h.cursor.next).bind ?_
  rintro ⟨t, c⟩ ⟨piece, inside⟩
  exact .ok ((h.add piece).moved inside)

theorem approach (h : l.Sound s) : Steps s l.approach := by
  have here := h.skipToPiece l.cursor.bound
  refine here.cursor.look.bind fun _ _ => here.dropStale.bind fun l h => ?_
  exact .ok (h.endBlocks l.cursor.column)

end Sound

theorem readName_scans {t : List Char → Token} (piece : ∀ name, (t name).IsPiece) (h : Within s c) :
    Scans s Token.IsPiece (readName t c) :=
  (anchorName_scans h.next).map fun r h => ⟨piece r.1, h.2⟩

theorem readQuoted_scans (quote : Char) (h : Within s c) : Scans s Token.IsPiece (readQuoted quote c) :=
  (quotedText_scans quote h).map fun _ h => ⟨trivial, h.2⟩

theorem Sound.addNext (h : l.Sound s) : Steps s l.addNext := by
  unfold Layout.addNext
  refine .ite h.addDirective (.ite (h.addDocumentMark trivial) (.ite (h.addDocumentMark trivial) ?_))
  split
  · exact h.openFlow trivial
  · exact h.openFlow trivial
  · exact h.closeFlow trivial
  · exact h.closeFlow trivial
  · exact h.addComma
  · refine .ite (h.addEntry .blockSequence .item trivial trivial _) ?_
    refine .ite (h.addEntry .blockMapping .key trivial trivial _) ?_
    refine .ite h.addValue ?_
    refine .ite (h.addPiece (readName_scans fun _ => trivial)) ?_
    refine .ite (h.addPiece (readName_scans fun _ => trivial)) ?_
    refine .ite (h.addPiece tagAt_scans) ?_
    refine .ite (h.addBlockText _) (.ite (h.addBlockText _) ?_)
    exact .ite (h.addPiece (readQuoted_scans _)) (.ite h.addPlain (.error .yaml))
  · exact .error .yaml

theorem Sound.step (h : l.Sound s) :
    Ends (Unscanned s) (fun r => match r with
      | .inl l => l.Sound s
      | .inr tokens => ∀ t ∈ tokens, t.IsPiece) l.step := by
  unfold Layout.step
  refine h.approach.bind fun l h => ?_
  split
  · exact h.leaveDocument.bind fun l h => .ok (List.forall_mem_cons.2 ⟨trivial, h.tokens⟩)
  · exact h.addNext.bind fun l h => h.cursor.look.bind fun _ _ => .ok h

/-- Where no further piece can be read, the tokens are about pieces up to the last one. -/
theorem Sound.stop (h : l.Sound s) {f f' : Fault} (mem : .bad f' ∈ l.stop f) : f' = f := by
  rcases List.mem_cons.1 mem with last | before
  · cases last
    rfl
  · exact (h.tokens _ (List.mem_of_mem_drop before)).elim

theorem Sound.run (h : l.Sound s) (fuel : Nat) {f : Fault} (mem : .bad f ∈ l.run fuel) : Unscanned s f := by
  induction fuel generalizing l with
  | zero => exact h.stop mem ▸ .yaml
  | succ fuel ih =>
    have stepped := h.step
    unfold Layout.run at mem
    split at mem
    · next e =>
      rw [e] at stepped
      exact h.stop mem ▸ stepped.fault
    · next e =>
      rw [e] at stepped
      exact (stepped.result _ mem).elim
    · next e =>
      rw [e] at stepped
      exact ih stepped.result mem

end Layout

/-- The faults that the tokens of a text are about are those that stop its readers. -/
theorem tokensOf_faults {f : Fault} (mem : .bad f ∈ tokensOf s) : Unscanned s f :=
  (Layout.sound_start s).run _ (List.mem_reverse.1 mem)

end ZincModel.Yaml
