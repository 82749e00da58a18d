import Mathlib.Algebra.Group.Nat.Defs
import ZincModel.Json.Reader
import ZincModel.Json.Writer
import ZincModel.Proofs.Success

/-!
# Quoted texts

A text that is written between quotes is read as it was (`readText_asciiText`). The reader works in two steps, and
so does the proof: a character is read as its number or as its two halves, and numbers and halves are put together
again. What is written is printable ASCII (`isPrintable_asciiText`).
-/

namespace ZincModel.Json

open Text

/-- A printable character of ASCII. -/
def IsPrintable (c : Char) : Prop := 0x20 ≤ c.toNat ∧ c.toNat ≤ 0x7E

instance (c : Char) : Decidable (IsPrintable c) := inferInstanceAs (Decidable (_ ∧ _))

theorem isPrintable_of_all {w : List Char} (h : (w.all fun c => decide (IsPrintable c)) = true) :
    ∀ c ∈ w, IsPrintable c := by
  simpa using h

/-! ## Hexadecimal digits -/

theorem hexValue?_hexDigit (capital : Bool) : ∀ d < 16, hexValue? (hexDigit capital d) = some d := by
  cases capital <;> decide

theorem isPrintable_hexDigit (capital : Bool) : ∀ d < 16, IsPrintable (hexDigit capital d) := by
  cases capital <;> decide

theorem hexNumber?_hexDigits (capital : Bool) (width n : Nat) :
    hexNumber? (hexDigits capital width n) = some (n % 16 ^ width) := by
  induction width generalizing n with
  | zero => simp [hexDigits, hexNumber?, Nat.mod_one]
  | succ width ih =>
    have front : (hexDigits capital width (n / 16)).foldlM (fun n c => (hexValue? c).map (16 * n + ·)) 0 =
        some (n / 16 % 16 ^ width) := ih (n / 16)
    have value : 16 * (n / 16 % 16 ^ width) + n % 16 = n % 16 ^ (width + 1) := by
      rw [Nat.pow_succ, Nat.mul_comm (16 ^ width), Nat.mod_mul]
      omega
    simp only [hexNumber?, hexDigits, List.foldlM_append, front, Option.bind_eq_bind, Option.bind_some,
      List.foldlM_cons, List.foldlM_nil, hexValue?_hexDigit capital _ (Nat.mod_lt n (by decide)), Option.map_some,
      value]
    rfl

/-! ## Characters -/

/-- What is read for a character: its number, or its two halves. -/
def unitsOf (c : Char) : List Nat :=
  if c.toNat < 0x10000 then [c.toNat]
  else [0xD800 + (c.toNat - 0x10000) / 0x400, 0xDC00 + (c.toNat - 0x10000) % 0x400]

/-- A number behind `\u` is read, unless the text ends there. -/
theorem readUnits_number {a b c d : Char} {n : Nat} (h : hexNumber? [a, b, c, d] = some n) {rest : List Char}
    (more : rest ≠ []) :
    readUnits ('\\' :: 'u' :: a :: b :: c :: d :: rest) = (readUnits rest).map fun r => (n :: r.1, r.2) := by
  have isEmpty : rest.isEmpty = false := by simpa using more
  simp only [readUnits, isEmpty, h, Bool.false_eq_true, if_false]

theorem readUnits_unitEscape {n : Nat} (hn : n < 0x10000) {rest : List Char} (more : rest ≠ []) :
    readUnits (unitEscape n ++ rest) = (readUnits rest).map fun r => (n :: r.1, r.2) := by
  have small : n % 16 ^ 4 = n := Nat.mod_eq_of_lt hn
  have digits : hexNumber? (hexDigits false 4 n) = some n := by
    rw [hexNumber?_hexDigits, small]
  exact readUnits_number digits more

/-- Halves of characters are no characters. -/
theorem toNat_valid (c : Char) : c.toNat < 0xD800 ∨ 0xDFFF < c.toNat ∧ c.toNat < 0x110000 := c.valid

/-- A character that stands for itself. -/
theorem readUnits_cons {c : Char} (plain : letter? c = none) (printable : 0x20 ≤ c.toNat) (rest : List Char) :
    readUnits (c :: rest) = (readUnits rest).map fun r => (c.toNat :: r.1, r.2) := by
  rw [readUnits.eq_def]
  split
  · next e => cases e
  · next e => cases e; cases plain
  · next e => cases e; cases plain
  · next e =>
    cases e
    rw [if_neg (Nat.not_lt.2 printable)]

/-- A character is read as it was written. -/
theorem readUnits_asciiChar (c : Char) {rest : List Char} (more : rest ≠ []) :
    readUnits (asciiChar c ++ rest) = (readUnits rest).map fun r => (unitsOf c ++ r.1, r.2) := by
  have valid := toNat_valid c
  unfold asciiChar
  cases plain : letter? c with
  | some l =>
    unfold letter? at plain
    split at plain <;> cases plain <;> rfl
  | none =>
    dsimp only
    by_cases printable : 0x20 ≤ c.toNat ∧ c.toNat ≤ 0x7E
    · have narrow : unitsOf c = [c.toNat] := if_pos (by omega)
      rw [if_pos (by simpa using printable), narrow]
      exact readUnits_cons plain printable.1 rest
    · rw [if_neg (by simpa using printable)]
      unfold charEscape unitsOf
      split
      · next narrow => exact readUnits_unitEscape narrow more
      · dsimp only
        rw [List.append_assoc, readUnits_unitEscape (by omega) (by simp [unitEscape]),
          readUnits_unitEscape (by omega) more]
        cases readUnits rest <;> rfl

/-- The halves of a character give it back. -/
theorem joinHalves_units (s : List Char) : joinHalves (s.flatMap unitsOf) = s := by
  induction s with
  | nil => rfl
  | cons c s ih =>
    have valid := toNat_valid c
    rw [List.flatMap_cons]
    by_cases narrow : c.toNat < 0x10000
    · have high : isHighHalf c.toNat = false := by simp [isHighHalf]; omega
      have low : isLowHalf c.toNat = false := by simp [isLowHalf]; omega
      rw [show unitsOf c = [c.toNat] from if_pos narrow, List.singleton_append]
      cases e : s.flatMap unitsOf with
      | nil =>
        rw [e] at ih
        simp [joinHalves, high, low, ← ih]
      | cons m rest =>
        rw [e] at ih
        simp [joinHalves, high, low, ih]
    · have high : isHighHalf (0xD800 + (c.toNat - 0x10000) / 0x400) = true := by simp [isHighHalf]; omega
      have low : isLowHalf (0xDC00 + (c.toNat - 0x10000) % 0x400) = true := by simp [isLowHalf]; omega
      have back : charOfHalves (0xD800 + (c.toNat - 0x10000) / 0x400)
          (0xDC00 + (c.toNat - 0x10000) % 0x400) = c := by
        have number : 0x10000 + (0xD800 + (c.toNat - 0x10000) / 0x400 - 0xD800) * 0x400 +
            (0xDC00 + (c.toNat - 0x10000) % 0x400 - 0xDC00) = c.toNat := by omega
        rw [charOfHalves, number, Char.ofNat_toNat]
      rw [show unitsOf c = _ from if_neg narrow]
      simp only [List.cons_append, List.nil_append, joinHalves, high, low, Bool.and_self, if_true, back, ih]

/-! ## Texts -/

theorem readUnits_asciiChars (s rest : List Char) :
    readUnits (s.flatMap asciiChar ++ '"' :: rest) = .ok (s.flatMap unitsOf, rest) := by
  induction s with
  | nil => rfl
  | cons c s ih =>
    rw [List.flatMap_cons, List.append_assoc, readUnits_asciiChar c (by simp), ih]
    rfl

/-- A text is read as it was written. -/
theorem readText_asciiText (s rest : List Char) :
    readText (s.flatMap asciiChar ++ '"' :: rest) = .ok (s, rest) := by
  rw [readText, readUnits_asciiChars]
  exact congrArg (fun s => Except.ok (s, rest)) (joinHalves_units s)

/-- A character that is not escaped is read as its number. -/
theorem readUnits_plainChar (c : Char) {rest : List Char} (more : rest ≠ []) :
    readUnits (plainChar c ++ rest) = (readUnits rest).map fun r => (c.toNat :: r.1, r.2) := by
  unfold plainChar
  cases plain : letter? c with
  | some l =>
    unfold letter? at plain
    split at plain <;> cases plain <;> rfl
  | none =>
    dsimp only
    split
    · next control => exact readUnits_unitEscape (by omega) more
    · next printed => exact readUnits_cons plain (by omega) rest

theorem readUnits_plainChars (s rest : List Char) :
    readUnits (s.flatMap plainChar ++ '"' :: rest) = .ok (s.map Char.toNat, rest) := by
  induction s with
  | nil => rfl
  | cons c s ih =>
    rw [List.flatMap_cons, List.append_assoc, readUnits_plainChar c (by simp), ih]
    rfl

theorem joinHalves_toNat (s : List Char) : joinHalves (s.map Char.toNat) = s := by
  induction s with
  | nil => rfl
  | cons c s ih =>
    have valid := toNat_valid c
    have high : isHighHalf c.toNat = false := by simp [isHighHalf]; omega
    have low : isLowHalf c.toNat = false := by simp [isLowHalf]; omega
    cases s with
    | nil => simp [joinHalves, high, low]
    | cons d s =>
      rw [List.map_cons] at ih
      simp [joinHalves, high, low, ih]

theorem readText_plainText (s rest : List Char) :
    readText (s.flatMap plainChar ++ '"' :: rest) = .ok (s, rest) := by
  rw [readText, readUnits_plainChars]
  exact congrArg (fun s => Except.ok (s, rest)) (joinHalves_toNat s)

/-! ## Printable ASCII -/

theorem exists_hexDigit {capital : Bool} {width n : Nat} {c : Char} (h : c ∈ hexDigits capital width n) :
    ∃ d < 16, c = hexDigit capital d := by
  induction width generalizing n with
  | zero => simp [hexDigits] at h
  | succ width ih =>
    rcases List.mem_append.1 h with h | h
    · exact ih h
    · exact ⟨n % 16, Nat.mod_lt n (by decide), List.mem_singleton.1 h⟩

theorem isPrintable_hexDigits (capital : Bool) (width n : Nat) :
    ∀ c ∈ hexDigits capital width n, IsPrintable c := by
  intro c hc
  obtain ⟨d, hd, rfl⟩ := exists_hexDigit hc
  exact isPrintable_hexDigit capital d hd

theorem isPrintable_unitEscape (n : Nat) : ∀ c ∈ unitEscape n, IsPrintable c :=
  List.forall_mem_cons.2 ⟨by decide, List.forall_mem_cons.2 ⟨by decide, isPrintable_hexDigits false 4 n⟩⟩

theorem isPrintable_asciiChar (c : Char) : ∀ c' ∈ asciiChar c, IsPrintable c' := by
  unfold asciiChar
  cases plain : letter? c with
  | some l =>
    unfold letter? at plain
    split at plain <;> cases plain <;> exact isPrintable_of_all (by decide)
  | none =>
    dsimp only
    split
    · next printable => simpa [IsPrintable] using printable
    · unfold charEscape
      split
      · exact isPrintable_unitEscape _
      · intro c' hc'
        exact (List.mem_append.1 hc').elim (isPrintable_unitEscape _ c') (isPrintable_unitEscape _ c')

theorem isPrintable_asciiText (s : List Char) : ∀ c ∈ asciiText s, IsPrintable c := by
  intro c hc
  rcases List.mem_cons.1 hc with rfl | hc
  · decide
  rcases List.mem_append.1 hc with hc | hc
  · obtain ⟨c', -, hc'⟩ := List.mem_flatMap.1 hc
    exact isPrintable_asciiChar c' c hc'
  · rw [List.mem_singleton.1 hc]
    decide

end ZincModel.Json
