import Mathlib.Data.List.DropRight
import ZincModel.Program.Source
import ZincModel.Proofs.Json.Text

/-!
# Texts in programs

The literal of a text stands between two quotes, and nothing gets out of it (`IsSealed`): no line ends in it, no quote
inside of it closes it, and what stands behind it is left to be read. Between its quotes there are characters that
stand for themselves and escapes (`Inside`), from which all of this follows. Read as a text of JSON, the literal is
the text that it was made of (`literal_sealed`).
-/

namespace ZincModel.Program

/-! ## Between quotes -/

/-- The character has no other meaning between quotes. -/
def StandsForItself (c : Char) : Prop := 0x20 ≤ c.toNat ∧ c ≠ '"' ∧ c ≠ '\\'

instance (c : Char) : Decidable (StandsForItself c) := inferInstanceAs (Decidable (_ ∧ _ ∧ _))

/-- What stands between the quotes of a literal: characters that stand for themselves, and escapes, which are a
backslash and one of these letters. A backslash in front of a parenthesis, which would have an expression behind it, is
none of them. -/
inductive Inside : List Char → Prop
  | nil : Inside []
  | char {c : Char} {s : List Char} : StandsForItself c → Inside s → Inside (c :: s)
  | escape {l : Char} {s : List Char} :
      l ∈ ['"', '\\', 'n', 'r', 't', 'f', 'b', 'u'] → Inside s → Inside ('\\' :: l :: s)

theorem Inside.append {w s : List Char} (hw : ∀ c ∈ w, StandsForItself c) (hs : Inside s) : Inside (w ++ s) := by
  induction w with
  | nil => exact hs
  | cons c w ih =>
    obtain ⟨first, others⟩ := List.forall_mem_cons.1 hw
    exact .char first (ih others)

theorem standsForItself_hexDigit (capital : Bool) : ∀ d < 16, StandsForItself (Text.hexDigit capital d) := by
  cases capital <;> decide

theorem standsForItself_hexDigits (capital : Bool) (width n : Nat) :
    ∀ c ∈ Text.hexDigits capital width n, StandsForItself c := by
  intro c hc
  obtain ⟨d, hd, rfl⟩ := Json.exists_hexDigit hc
  exact standsForItself_hexDigit capital d hd

theorem letter_mem {c l : Char} (h : Json.letter? c = some l) : l ∈ ['"', '\\', 'n', 'r', 't', 'f', 'b', 'u'] := by
  unfold Json.letter? at h
  split at h <;> cases h <;> decide

/-- A character between quotes, as it is written. -/
theorem Inside.plainChar (c : Char) {s : List Char} (h : Inside s) : Inside (Json.plainChar c ++ s) := by
  unfold Json.plainChar
  cases e : Json.letter? c with
  | some l => exact .escape (letter_mem e) h
  | none =>
    dsimp only
    split
    · exact .escape (by decide) (h.append (standsForItself_hexDigits false 4 c.toNat))
    · next printed =>
      refine .char ⟨Nat.not_lt.1 printed, ?_, ?_⟩ h
      · rintro rfl
        cases e
      · rintro rfl
        cases e

theorem inside_plainChars (s : List Char) : Inside (s.flatMap Json.plainChar) := by
  induction s with
  | nil => exact .nil
  | cons c s ih =>
    rw [List.flatMap_cons]
    exact ih.plainChar c

/-- No control character stands between quotes. -/
theorem Inside.printed {s : List Char} (h : Inside s) : ∀ c ∈ s, 0x20 ≤ c.toNat := by
  induction h with
  | nil => exact List.forall_mem_nil _
  | char hc _ ih => exact List.forall_mem_cons.2 ⟨hc.1, ih⟩
  | @escape l s hl _ ih =>
    have letters : ∀ l ∈ ['"', '\\', 'n', 'r', 't', 'f', 'b', 'u'], 0x20 ≤ l.toNat := by simp
    exact List.forall_mem_cons.2 ⟨by decide, List.forall_mem_cons.2 ⟨letters l hl, ih⟩⟩

/-! ## Backslashes -/

/-- The number of backslashes at the end of a text. -/
def backslashes (s : List Char) : Nat := (s.rtakeWhile (· == '\\')).length

theorem backslashes_of_all {s : List Char} (h : ∀ c ∈ s, c = '\\') : backslashes s = s.length := by
  have whole : s.rtakeWhile (· == '\\') = s := List.rtakeWhile_eq_self_iff.2 (by simpa using h)
  rw [backslashes, whole]

/-- A character counts only in front of nothing but backslashes. -/
theorem backslashes_cons {c : Char} {s : List Char} (h : ¬(c = '\\' ∧ ∀ d ∈ s, d = '\\')) :
    backslashes (c :: s) = backslashes s := by
  simp only [backslashes, List.rtakeWhile, List.reverse_cons, List.length_reverse, List.takeWhile_append]
  split
  · next whole =>
    have same : s.reverse.takeWhile (· == '\\') = s.reverse :=
      (List.takeWhile_prefix _).eq_of_length (by simpa using whole)
    have all : ∀ d ∈ s, d = '\\' := by simpa using List.takeWhile_eq_self_iff.1 same
    have other : c ≠ '\\' := fun e => h ⟨e, all⟩
    simp [same, other]
  · rfl

/-- Whether the number is odd does not depend on an escape in front. -/
theorem backslashes_escape (l : Char) (s : List Char) : backslashes ('\\' :: l :: s) % 2 = backslashes s % 2 := by
  by_cases h : l = '\\' ∧ ∀ d ∈ s, d = '\\'
  · have all : ∀ d ∈ '\\' :: l :: s, d = '\\' := List.forall_mem_cons.2 ⟨rfl, List.forall_mem_cons.2 h⟩
    rw [backslashes_of_all all, backslashes_of_all h.2]
    simp only [List.length_cons]
    omega
  · have apart : ¬('\\' = '\\' ∧ ∀ d ∈ l :: s, d = '\\') := fun e => h (List.forall_mem_cons.1 e.2)
    rw [backslashes_cons apart, backslashes_cons h]

/-- A quote between the quotes of a literal stands behind an odd number of backslashes. -/
theorem Inside.odd {s a b : List Char} (h : Inside s) (e : s = a ++ '"' :: b) : backslashes a % 2 = 1 := by
  induction h generalizing a with
  | nil => simp at e
  | @char c s hc _ ih =>
    cases a with
    | nil =>
      cases e
      exact absurd rfl hc.2.1
    | cons d a =>
      cases e
      rw [backslashes_cons fun h => hc.2.2 h.1]
      exact ih rfl
  | @escape l s _ _ ih =>
    match a with
    | [] => cases e
    | [d] =>
      cases e
      rfl
    | d :: d' :: a =>
      cases e
      rw [backslashes_escape]
      exact ih rfl

/-- The quote that closes a literal stands behind an even number of backslashes. -/
theorem Inside.even {s : List Char} (h : Inside s) : backslashes s % 2 = 0 := by
  induction h with
  | nil => rfl
  | @char c s hc _ ih =>
    rw [backslashes_cons fun h => hc.2.2 h.1]
    exact ih
  | @escape l s _ _ ih =>
    rw [backslashes_escape]
    exact ih

/-! ## The end of a literal -/

/-- What stands in front of the next quote that is not behind a backslash, and what stands behind that quote. -/
def untilQuote? : List Char → Option (List Char × List Char)
  | [] => none
  | '"' :: rest => some ([], rest)
  | '\\' :: c :: rest => (untilQuote? rest).map fun r => ('\\' :: c :: r.1, r.2)
  | c :: rest => (untilQuote? rest).map fun r => (c :: r.1, r.2)

theorem untilQuote?_char {c : Char} (h : StandsForItself c) (s : List Char) :
    untilQuote? (c :: s) = (untilQuote? s).map fun r => (c :: r.1, r.2) := by
  rw [untilQuote?.eq_def]
  split
  · next e => cases e
  · next e =>
    cases e
    exact absurd rfl h.2.1
  · next e =>
    cases e
    exact absurd rfl h.2.2
  · next e =>
    cases e
    rfl

/-- The first quote that is not behind a backslash is the one that closes the literal. -/
theorem Inside.untilQuote? {s : List Char} (h : Inside s) (rest : List Char) :
    untilQuote? (s ++ '"' :: rest) = some (s, rest) := by
  induction h with
  | nil => rfl
  | char hc _ ih =>
    rw [List.cons_append, untilQuote?_char hc, ih]
    rfl
  | escape _ _ ih =>
    rw [List.cons_append, List.cons_append, Program.untilQuote?, ih]
    rfl

/-- Nothing gets out of what stands between two quotes: no control character ends its line, a quote in it is behind an
odd number of backslashes and the one that closes it is not, and there a reader stops, whatever stands behind. -/
structure IsSealed (inner : List Char) : Prop where
  printed : ∀ c ∈ inner, 0x20 ≤ c.toNat
  escaped : ∀ a b, inner = a ++ '"' :: b → backslashes a % 2 = 1
  closing : backslashes inner % 2 = 0
  closed : ∀ rest, untilQuote? (inner ++ '"' :: rest) = some (inner, rest)

theorem Inside.isSealed {s : List Char} (h : Inside s) : IsSealed s where
  printed := h.printed
  escaped _ _ := h.odd
  closing := h.even
  closed := h.untilQuote?

/-! ## Literals of texts -/

theorem printed_plainText (t : List Char) : ∀ c ∈ Json.plainText t, 0x20 ≤ c.toNat :=
  List.forall_mem_cons.2 ⟨by decide, List.forall_mem_append.2
    ⟨(inside_plainChars t).printed, List.forall_mem_singleton.2 (by decide)⟩⟩

theorem read_plainText (t : List Char) : Json.read (Json.plainText t) = .ok (.str (String.ofList t)) := by
  have value : Json.readValue (2 * (Json.plainText t).length + 2) (Json.plainText t) =
      .ok (.str (String.ofList t), []) := by
    change (Json.readText (t.flatMap Json.plainChar ++ ['"'])).map _ = _
    rw [Json.readText_plainText]
    rfl
  have whole : Json.readWhole (Json.plainText t) = .ok (.str (String.ofList t)) := by
    change Json.readValue (2 * (Json.plainText t).length + 2) (Json.plainText t) >>= _ = _
    rw [value]
    rfl
  exact Except.mapError_eq_ok.2 whole

/-- The literal of a text is sealed between its quotes and read as the text. In the declaration of a parameter only the
semicolon stands behind it. -/
theorem literal_sealed (s : String) :
    ∃ inner, literal .string (.str s) = .ok ('"' :: (inner ++ ['"'])) ∧ IsSealed inner ∧
      Json.read ('"' :: (inner ++ ['"'])) = .ok (.str s) ∧
      ∀ name role, parameterLine ⟨name, .string, role, .str s⟩ =
        .ok ("string: ".toList ++ name.toList ++ " = ".toList ++ '"' :: (inner ++ ['"', ';'])) := by
  refine ⟨s.toList.flatMap Json.plainChar, rfl, (inside_plainChars s.toList).isSealed, ?_, fun name role => ?_⟩
  · have read := read_plainText s.toList
    rwa [String.ofList_toList] at read
  · have line : parameterLine ⟨name, .string, role, .str s⟩ =
        .ok ("string".toList ++ ": ".toList ++ name.toList ++ " = ".toList ++ Json.plainText s.toList ++ [';']) := rfl
    rw [line]
    simp [Json.plainText]

end ZincModel.Program
