import ZincModel.Proofs.Json.Fitting
import ZincModel.Proofs.Yaml.Quoted

/-!
# What keeps a text from having tokens

All places that the readers of tokens come to lie in the text (`Within`). What stops them is a fault of its syntax, or
the fault that keeps one from getting more of it, or it stands in the text: an escape for a character that there is
not, or a number of a version that is too long (`Unscanned`). A reader stops with the fault where it is met first, and
no other tokens but the last one are about a fault (`tokensOf_clean`).
-/

namespace ZincModel.Yaml

open Except (Ends)
open Text (isDigit hexNumber?)

variable {s : Input}

/-- What stops the readers of the tokens of a text. -/
inductive Unscanned (s : Input) : Fault → Prop
  | yaml : Unscanned s .yaml
  | beyond {f : Fault} : s.beyond = some f → Unscanned s f
  | character {f : Fault} {n : Nat} : ['\\', 'U'] <:+: s.text → charOfNumber n = .error f → Unscanned s f
  | version {n : Nat} : HasRun s.text n → Unscanned s (.content (.integerUnreadable n))

/-- The place lies in the text. -/
structure Within (s : Input) (c : Cursor) : Prop where
  rest : c.rest <:+ s.text
  beyond : c.beyond = s.beyond

/-- The reader comes to a place in the text, with a result that is known to be `P`, or is stopped. -/
abbrev Scans {α : Type} (s : Input) (P : α → Prop) : Except Fault (α × Cursor) → Prop :=
  Ends (Unscanned s) fun r => P r.1 ∧ Within s r.2

namespace Within

variable {c c' : Cursor}

theorem start (s : Input) : Within s (.start s) := by
  refine ⟨?_, rfl⟩
  unfold Cursor.start
  dsimp only
  split
  · next e => exact e ▸ List.suffix_cons _ _
  · exact List.suffix_rfl

theorem next (h : Within s c) : Within s c.next :=
  ⟨by rw [Cursor.rest_next]; exact (List.tail_suffix _).trans h.rest, by rw [Cursor.beyond_next]; exact h.beyond⟩

theorem advance (h : Within s c) (n : Nat) : Within s (c.advance n) :=
  ⟨by rw [Cursor.rest_advance]; exact (List.drop_suffix _ _).trans h.rest, by
    rw [Cursor.beyond_advance]; exact h.beyond⟩

theorem takeWhile (h : Within s c) (p : Char → Bool) : Within s (c.takeWhile p).2 := h.advance _

theorem skipWhile (h : Within s c) (p : Char → Bool) : Within s (c.skipWhile p) := h.advance _

theorem skipSpaces (h : Within s c) : Within s c.skipSpaces := h.skipWhile _

theorem skipComment (h : Within s c) : Within s c.skipComment := by
  unfold Cursor.skipComment
  split
  · exact h.skipWhile _
  · exact h

theorem lineBreak? (h : Within s c) {x : Char} (broken : c.lineBreak? = some (x, c')) : Within s c' := by
  unfold Cursor.lineBreak? at broken
  split at broken
  · cases broken
    exact h.advance 2
  · split at broken
    · cases broken
      exact h.next
    · split at broken
      · cases broken
        exact h.next
      · cases broken
  · cases broken

theorem skipBreak (h : Within s c) : Within s c.skipBreak := by
  unfold Cursor.skipBreak
  split
  · next broken => exact h.lineBreak? broken
  · exact h

/-! ### Faults at a place -/

theorem unexpected (h : Within s c) : Unscanned s c.unexpected := by
  unfold Cursor.unexpected
  split
  · cases beyond : c.beyond with
    | none => exact .yaml
    | some f => exact .beyond (h.beyond ▸ beyond)
  · exact .yaml

theorem look (h : Within s c) : Ends (Unscanned s) (fun _ => True) c.look := by
  unfold Cursor.look
  split
  · next beyond => exact .error (.beyond (h.beyond ▸ beyond))
  · exact .ok trivial

theorem skipLine (h : Within s c) : Ends (Unscanned s) (Within s) c.skipLine := by
  unfold Cursor.skipLine
  dsimp only
  split
  · exact .ok h.skipSpaces.skipComment.skipBreak
  · exact .error .yaml

theorem hexNumber (h : Within s c) (width : Nat) :
    Scans s (fun n => hexNumber? (c.rest.take width) = some n) (c.hexNumber width) := by
  unfold Cursor.hexNumber
  dsimp only
  split
  · exact .error .yaml
  · next n number =>
    split
    · exact .ok ⟨number, h.advance width⟩
    · exact .error (h.advance width).unexpected

end Within

/-! ## Plain texts -/

theorem plainBreaks_within {c : Cursor} (h : Within s c) (fuel : Nat) : Within s (plainBreaks fuel c).2 := by
  induction fuel generalizing c with
  | zero => exact h
  | succ fuel ih =>
    unfold plainBreaks
    dsimp only
    split
    · exact h.skipSpaces
    · next broken =>
      have behind := h.skipSpaces.lineBreak? broken
      split
      · exact behind
      · exact ih behind

theorem plainGap_within {c : Cursor} (h : Within s c) : Within s (plainGap c).after := by
  unfold plainGap
  dsimp only
  split
  · exact h.takeWhile _
  · next place broken =>
    have behind := (h.takeWhile _).lineBreak? broken
    have inner := plainBreaks_within behind place.bound
    split
    · exact behind
    · split
      · next e =>
        rw [e] at inner
        exact inner
      · next e =>
        rw [e] at inner
        exact inner

theorem plainFrom_within {inFlow : Bool} {least : Int} {gap : PlainGap} (h : Within s gap.after) (fuel : Nat) :
    Within s (plainFrom inFlow least fuel gap).2.after := by
  induction fuel generalizing gap with
  | zero => exact h
  | succ fuel ih =>
    unfold plainFrom
    dsimp only
    generalize (if atComment gap.after.rest then [] else plainRun inFlow gap.after.rest) = run
    have next := plainGap_within (h.advance run.length)
    split
    · exact h
    · split
      · exact next
      · exact ih next

theorem plainText_within {inFlow : Bool} {least : Int} {c : Cursor} (h : Within s c) :
    Within s (plainText inFlow least c).2.after :=
  plainFrom_within h _

/-! ## Quoted texts -/

theorem quotedBreaks_scans {c : Cursor} (h : Within s c) (fuel : Nat) :
    Scans s (fun _ => True) (quotedBreaks fuel c) := by
  induction fuel generalizing c with
  | zero => exact .ok ⟨trivial, h⟩
  | succ fuel ih =>
    unfold quotedBreaks
    split
    · exact .error .yaml
    · dsimp only
      split
      · exact .ok ⟨trivial, h.skipWhile _⟩
      · next broken => exact (ih ((h.skipWhile _).lineBreak? broken)).map fun _ h => h

theorem quotedGap_scans {c : Cursor} (h : Within s c) : Scans s (fun _ => True) (quotedGap c) := by
  have behind := h.takeWhile fun x => x == ' ' || x == '\t'
  unfold quotedGap
  dsimp only
  split
  · exact .error behind.unexpected
  · split
    · exact .ok ⟨trivial, behind⟩
    · next broken => exact (quotedBreaks_scans (behind.lineBreak? broken) _).map fun _ h => h

theorem hexValue?_lt {c : Char} {d : Nat} (h : Text.hexValue? c = some d) : d < 16 := by
  unfold Text.hexValue? at h
  simp only [Char.le_def, UInt32.le_iff_toNat_le] at h
  have zero : '0'.toNat = 48 := rfl
  have nine : '9'.toNat = 57 := rfl
  have small : 'a'.toNat = 97 ∧ 'f'.toNat = 102 := ⟨rfl, rfl⟩
  have capital : 'A'.toNat = 65 ∧ 'F'.toNat = 70 := ⟨rfl, rfl⟩
  split at h
  · cases h
    have range := ‹_ ∧ _›
    simp only [Char.toNat] at *
    omega
  · split at h
    · cases h
      simp only [Char.toNat] at *
      omega
    · split at h
      · cases h
        simp only [Char.toNat] at *
        omega
      · cases h

/-- A row of hexadecimal digits stands for a number below a power of sixteen. -/
theorem hexNumber?_lt {w : List Char} {n : Nat} (h : hexNumber? w = some n) : n < 16 ^ w.length := by
  have fold (init : Nat) (h : w.foldlM (fun n c => (Text.hexValue? c).map (16 * n + ·)) init = some n) :
      n < (init + 1) * 16 ^ w.length := by
    clear * - h
    induction w generalizing init with
    | nil =>
      cases h
      simp
    | cons c w ih =>
      rw [List.foldlM_cons] at h
      obtain ⟨next, here, others⟩ := Option.bind_eq_some_iff.1 h
      obtain ⟨d, value, rfl⟩ := Option.map_eq_some_iff.1 here
      have digit := hexValue?_lt value
      calc
        n < (16 * init + d + 1) * 16 ^ w.length := ih _ others
        _ ≤ (16 * (init + 1)) * 16 ^ w.length := Nat.mul_le_mul_right _ (by omega)
        _ = (init + 1) * 16 ^ (w.length + 1) := by rw [Nat.pow_succ]; ring
  simpa using fold 0 h

/-- Only an escape with eight digits can be for a character that there is not. -/
theorem charOfNumber_ends {w : List Char} {n width : Nat} {x : Char} (width? : escapeWidth? x = some width)
    (number : hexNumber? (w.take width) = some n) (inside : '\\' :: x :: w <:+ s.text) :
    Ends (Unscanned s) (fun _ => True) (charOfNumber n) := by
  refine .of_forall (fun _ _ => trivial) fun f fault => ?_
  have small : n < 16 ^ width :=
    Nat.lt_of_lt_of_le (hexNumber?_lt number) (Nat.pow_le_pow_right (by decide) (List.length_take_le _ _))
  have fits (h : n < 0x110000) : False := by
    simp only [charOfNumber, show ¬0x7FFFFFFF < n by omega, show ¬0x10FFFF < n by omega, if_false] at fault
    split at fault <;> cases fault
  unfold escapeWidth? at width?
  split at width?
  · cases width?
    exact (fits (by omega)).elim
  · cases width?
    exact (fits (by omega)).elim
  · exact .character (List.IsInfix.trans ⟨[], w, rfl⟩ inside.isInfix) fault
  · cases width?

theorem escape_scans {c : Cursor} (h : Within s c) (inside : '\\' :: c.rest <:+ s.text) :
    Scans s (fun _ => True) (escape c) := by
  unfold escape
  split
  · exact .error h.unexpected
  · next x w rest =>
    split
    · exact .ok ⟨trivial, h.next⟩
    · split
      · next width width? =>
        refine (h.next.hexNumber width).bind ?_
        rintro ⟨n, c'⟩ ⟨number, behind⟩
        rw [Cursor.rest_next, rest, List.tail_cons] at number
        exact (charOfNumber_ends width? number (rest ▸ inside)).bind fun _ _ => .ok ⟨trivial, behind⟩
      · split
        · next broken => exact quotedBreaks_scans (h.lineBreak? broken) _
        · exact .error .yaml

theorem doubleRun_scans {c : Cursor} (h : Within s c) (fuel : Nat) : Scans s (fun _ => True) (doubleRun fuel c) := by
  induction fuel generalizing c with
  | zero => exact .ok ⟨trivial, h⟩
  | succ fuel ih =>
    unfold doubleRun
    split
    · exact .ok ⟨trivial, h⟩
    · next x w rest =>
      split
      · exact .ok ⟨trivial, h⟩
      · split
        · next backslash =>
          have inside : '\\' :: c.next.rest <:+ s.text := by
            rw [Cursor.rest_next, rest, List.tail_cons, ← eq_of_beq backslash, ← rest]
            exact h.rest
          refine (escape_scans h.next inside).bind ?_
          rintro ⟨text, c'⟩ ⟨-, behind⟩
          refine (ih behind).bind ?_
          rintro ⟨more, c''⟩ ⟨-, behind⟩
          exact .ok ⟨trivial, behind⟩
        · exact (ih h.next).map fun _ h => h

theorem singleRun_within {c : Cursor} (h : Within s c) (fuel : Nat) : Within s (singleRun fuel c).2 := by
  induction fuel generalizing c with
  | zero => exact h
  | succ fuel ih =>
    unfold singleRun
    split
    · exact h
    · exact ih (h.advance 2)
    · split
      · exact h
      · exact ih h.next

theorem quotedRun_scans (quote : Char) {c : Cursor} (h : Within s c) (fuel : Nat) :
    Scans s (fun _ => True) (quotedRun quote fuel c) := by
  unfold quotedRun
  exact .ite (doubleRun_scans h _) (.ok ⟨trivial, singleRun_within h _⟩)

theorem quotedFrom_scans (quote : Char) {c : Cursor} (h : Within s c) (fuel : Nat) :
    Scans s (fun _ => True) (quotedFrom quote fuel c) := by
  induction fuel generalizing c with
  | zero => exact .error .yaml
  | succ fuel ih =>
    rw [quotedFrom_succ]
    refine (quotedRun_scans quote h _).bind ?_
    rintro ⟨text, c₁⟩ ⟨-, h₁⟩
    dsimp only
    split
    · exact .ok ⟨trivial, h₁.next⟩
    · refine (quotedGap_scans h₁).bind ?_
      rintro ⟨gap, c₂⟩ ⟨-, h₂⟩
      refine (ih h₂).bind ?_
      rintro ⟨more, c₃⟩ ⟨-, h₃⟩
      exact .ok ⟨trivial, h₃⟩

theorem quotedText_scans (quote : Char) {c : Cursor} (h : Within s c) : Scans s (fun _ => True) (quotedText quote c) :=
  quotedFrom_scans quote h.next _

/-! ## Blocks of lines -/

theorem indentation?_ends (w : List Char) : Ends (Unscanned s) (fun _ => True) (indentation? w) := by
  unfold indentation?
  split
  · exact .error .yaml
  · exact .ok trivial
  · exact .ok trivial

theorem blockHeader_scans {c : Cursor} (h : Within s c) : Scans s (fun _ => True) (blockHeader c) := by
  have behind {header : BlockHeader} {c' : Cursor} (h : Within s c') :
      Scans s (fun _ => True) (if atSpace c'.rest then .ok (header, c') else .error .yaml) :=
    .ite (.ok ⟨trivial, h⟩) (.error .yaml)
  unfold blockHeader
  split
  · refine (indentation?_ends _).bind fun indentation _ => behind ?_
    split
    · exact h.advance 2
    · exact h.next
  · refine (indentation?_ends _).bind fun indentation _ => ?_
    split
    · split
      · exact behind (h.advance 2)
      · exact behind h.next
    · exact behind h

theorem blockBreaks_within {c : Cursor} (h : Within s c) (indent fuel : Nat) :
    Within s (blockBreaks indent fuel c).2 := by
  induction fuel generalizing c with
  | zero => exact h
  | succ fuel ih =>
    have start : Within s (skipIndentation indent c) := h.advance _
    unfold blockBreaks
    dsimp only
    split
    · exact start
    · next broken => exact ih (start.lineBreak? broken)

theorem blockStart_within {c : Cursor} (h : Within s c) (widest fuel : Nat) :
    Within s (blockStart fuel widest c).2.2 := by
  induction fuel generalizing c widest with
  | zero => exact h
  | succ fuel ih =>
    unfold blockStart
    dsimp only
    split
    · exact h.skipSpaces
    · next broken => exact ih (h.skipSpaces.lineBreak? broken) _

theorem blockLines_within {c : Cursor} (h : Within s c) (fold : Bool) (indent : Nat) (before : List Char) (fuel : Nat) :
    Within s (blockLines fold indent fuel before c).after := by
  induction fuel generalizing c before with
  | zero => exact h
  | succ fuel ih =>
    have line := h.takeWhile (!isBreak ·)
    unfold blockLines
    dsimp only
    split
    · next broken =>
      have behind := blockBreaks_within (line.lineBreak? broken)
      split
      · exact ih (behind _ _) _
      · exact behind _ _
    · have behind := blockBreaks_within line
      split
      · exact ih (behind _ _) _
      · exact behind _ _

theorem blockText_scans {c : Cursor} (h : Within s c) (fold : Bool) (indent : Int) :
    Scans s (fun _ => True) (blockText fold indent c) := by
  unfold blockText
  refine (blockHeader_scans h).bind ?_
  rintro ⟨header, c₁⟩ ⟨-, h₁⟩
  refine h₁.skipLine.bind fun c₂ h₂ => .ok ⟨trivial, ?_⟩
  dsimp only
  split
  · split
    · exact blockLines_within (blockBreaks_within h₂ _ _) _ _ _ _
    · exact blockBreaks_within h₂ _ _
  · split
    · exact blockLines_within (blockStart_within h₂ _ _) _ _ _ _
    · exact blockStart_within h₂ _ _

end ZincModel.Yaml
