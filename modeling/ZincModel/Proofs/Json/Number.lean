import ZincModel.Proofs.Json.Text
import ZincModel.Proofs.Number.Layout

/-!
# Numbers in JSON

The text of a number is read as this number again, in front of anything that can follow a value
(`readScalar_number`, `readScalar_numeral`). A fraction or an exponent tells a double precision number from an
integer, and the text of an integer has neither.
-/

namespace ZincModel.Json

open Text
open Double (Numeral Stops takeDigits_append)

/-- The text is at an end, or does not go on with what could be part of a number. -/
structure Closes (rest : List Char) : Prop where
  stops : Stops rest
  takeFraction : takeFraction rest = none
  takeExponent? : Double.takeExponent? rest = none

theorem Closes.nil : Closes [] := ⟨Stops.nil, rfl, rfl⟩

/-- What stands behind values. -/
theorem Closes.cons {c : Char} (h : c = ',' ∨ c = ']' ∨ c = '}') (rest : List Char) : Closes (c :: rest) := by
  rcases h with rfl | rfl | rfl <;> exact ⟨Stops.cons rfl, rfl, rfl⟩

variable {rest : List Char}

/-! ## Digits -/

/-- A row of digits as the whole part of a number has it: it starts with a zero only if it is one. -/
def IsWhole (ds : List Char) : Prop :=
  (∀ c ∈ ds, Text.isDigit c = true) ∧ (ds = ['0'] ∨ ∃ c cs, ds = c :: cs ∧ c ≠ '0')

theorem isWhole_toDigits (n : Nat) : IsWhole (Nat.toDigits 10 n) := by
  refine ⟨Double.isDigit_toDigits n, ?_⟩
  by_cases hn : n = 0
  · exact Or.inl (by rw [hn]; rfl)
  · exact Or.inr (Double.toDigits_head hn)

/-- The whole part of a number is read up to the first character that is no digit. -/
theorem readUnsigned?_whole {ds : List Char} (whole : IsWhole ds) (stops : Stops rest) (negative : Bool) :
    readUnsigned? negative (ds ++ rest) = some (numberFrom negative ds rest) := by
  obtain ⟨digits, rfl | ⟨c, cs, rfl, ne⟩⟩ := whole
  · rfl
  · have taken := takeDigits_append digits stops
    unfold readUnsigned?
    split
    · next e => exact absurd (List.cons.inj e).1 ne
    · rw [taken]

/-- A digit is none of the letters and signs that scalars start with. -/
theorem readScalar_digit {c : Char} (digit : Text.isDigit c = true) (s : List Char) :
    readScalar (c :: s) = (readUnsigned? false (c :: s)).getD (.error (.complain .value (c :: s).length)) := by
  unfold readScalar
  dsimp only
  split
  case h_8 => rfl
  all_goals
    next e =>
    cases e
    cases digit

theorem readScalar_minus {c : Char} (digit : Text.isDigit c = true) (s : List Char) :
    readScalar ('-' :: c :: s) =
      (readUnsigned? true (c :: s)).getD (.error (.complain .value ('-' :: c :: s).length)) := by
  unfold readScalar
  dsimp only
  split
  case h_7 e => cases e; rfl
  case h_8 no => exact absurd rfl (no _)
  all_goals
    next e =>
    cases e
    try cases digit

/-- A number with its sign, as it is written. -/
def signed (negative : Bool) (s : List Char) : List Char := (if negative then ['-'] else []) ++ s

/-- A number is read from its whole part on. -/
theorem readScalar_whole {ds : List Char} (whole : IsWhole ds) (stops : Stops rest) (negative : Bool) :
    readScalar (signed negative (ds ++ rest)) = numberFrom negative ds rest := by
  have found := readUnsigned?_whole whole stops
  obtain ⟨c, cs, rfl⟩ : ∃ c cs, ds = c :: cs := by
    rcases whole.2 with rfl | ⟨c, cs, rfl, -⟩ <;> exact ⟨_, _, rfl⟩
  have digit := whole.1 c List.mem_cons_self
  cases negative with
  | false =>
    change readScalar (c :: (cs ++ rest)) = _
    rw [readScalar_digit digit]
    exact congrArg (fun r => Option.getD r _) (found false)
  | true =>
    change readScalar ('-' :: c :: (cs ++ rest)) = _
    rw [readScalar_minus digit]
    exact congrArg (fun r => Option.getD r _) (found true)

/-! ## Integers -/

theorem numeral_eq (n : Int) : Integer.numeral n = signed (n < 0) (Nat.toDigits 10 n.natAbs) := by
  unfold Integer.numeral signed
  by_cases h : n < 0 <;> simp [h]

theorem length_toDigits_le {n : Int} (fits : Integer.fits n = true) :
    (Nat.toDigits 10 n.natAbs).length ≤ Integer.digitLimit := by
  have some : 0 < Integer.digitLimit := by decide
  unfold Integer.fits at fits
  generalize Integer.digitLimit = limit at some fits ⊢
  exact (Nat.length_toDigits_le_iff (by decide) some).2 (of_decide_eq_true fits)

/-- An integer is read as it was written, if it has no more digits than may be. -/
theorem readScalar_numeral {n : Int} (fits : Integer.fits n = true) (closes : Closes rest) :
    readScalar (Integer.numeral n ++ rest) = .ok (.int n, rest) := by
  have short := length_toDigits_le fits
  have spelled : Integer.numeral n ++ rest = signed (n < 0) (Nat.toDigits 10 n.natAbs ++ rest) := by
    rw [numeral_eq, signed, signed, List.append_assoc]
  rw [spelled, readScalar_whole (isWhole_toDigits _) closes.stops]
  have sign : (if n < 0 then -(n.natAbs : Int) else n.natAbs) = n := by split <;> omega
  simp only [numberFrom, closes.takeFraction, closes.takeExponent?, Option.getD_none, Option.isNone_none,
    Bool.and_self, if_true, if_neg (Nat.not_lt.2 short), Nat.ofDigitChars_ten_toDigits, decide_eq_true_eq, sign]

/-! ## Double precision numbers -/

/-- Behind the whole part of a proper numeral its fraction and exponent are read. -/
theorem numberFrom_numeral {x : Numeral} (proper : x.Proper) (closes : Closes rest) (negative : Bool) :
    numberFrom negative x.whole
        ((if x.fraction.isEmpty then [] else '.' :: x.fraction) ++
          ((x.exponent.map Numeral.exponentText).getD [] ++ rest)) =
      .ok (.ofDouble (.ofDecimal negative x.value.digits x.value.exponent), rest) := by
  obtain ⟨whole, fraction, exponent⟩ := x
  cases fraction with
  | nil =>
    obtain ⟨e, rfl⟩ := Option.ne_none_iff_exists'.1 (proper.some.resolve_left (by simp))
    have taken : Double.takeExponent? (Numeral.exponentText e ++ rest) = some (e, rest) :=
      Numeral.takeExponent?_exponentText e closes.stops
    have none : Json.takeFraction (Numeral.exponentText e ++ rest) = none := rfl
    simp [numberFrom, none, taken, Numeral.value]
  | cons d fraction =>
    have stops : Stops ((exponent.map Numeral.exponentText).getD [] ++ rest) := by
      cases exponent with
      | none => exact closes.stops
      | some e => exact Stops.cons rfl
    have fractionTaken : Json.takeFraction
        ('.' :: (d :: fraction ++ ((exponent.map Numeral.exponentText).getD [] ++ rest))) =
        some (d :: fraction, (exponent.map Numeral.exponentText).getD [] ++ rest) := by
      have taken := takeDigits_append proper.fraction stops
      simp only [Json.takeFraction, taken]
    have exponentTaken : (Double.takeExponent? ((exponent.map Numeral.exponentText).getD [] ++ rest)).getD
        (0, (exponent.map Numeral.exponentText).getD [] ++ rest) = (exponent.getD 0, rest) := by
      cases exponent with
      | none => exact congrArg (fun r => Option.getD r _) closes.takeExponent?
      | some e => exact congrArg (fun r => Option.getD r _) (Numeral.takeExponent?_exponentText e closes.stops)
    simp only [List.isEmpty_cons, Bool.false_eq_true, if_false, List.cons_append, numberFrom] at fractionTaken ⊢
    simp only [fractionTaken, Option.getD_some, exponentTaken, Option.isNone_some, Bool.false_and,
      Bool.false_eq_true,
      if_false, Numeral.value]

theorem isWhole_numeral {x : Numeral} (proper : x.Proper) : IsWhole x.whole := ⟨proper.whole, proper.first⟩

/-- A proper numeral is read as its value. -/
theorem readScalar_text {x : Numeral} (proper : x.Proper) (closes : Closes rest) (negative : Bool) :
    readScalar (signed negative x.text ++ rest) =
      .ok (.ofDouble (.ofDecimal negative x.value.digits x.value.exponent), rest) := by
  have stops : Stops ((if x.fraction.isEmpty then [] else '.' :: x.fraction) ++
      ((x.exponent.map Numeral.exponentText).getD [] ++ rest)) := by
    split
    · cases x.exponent with
      | none => exact closes.stops
      | some e => exact Stops.cons rfl
    · exact Stops.cons rfl
  have spelled : signed negative x.text ++ rest =
      signed negative (x.whole ++ ((if x.fraction.isEmpty then [] else '.' :: x.fraction) ++
        ((x.exponent.map Numeral.exponentText).getD [] ++ rest))) := by
    simp only [signed, Numeral.text, List.append_assoc]
  rw [spelled, readScalar_whole (isWhole_numeral proper) stops, numberFrom_numeral proper closes]

/-- A finite number is written as a proper numeral, which is rounded to the number. -/
theorem exists_numeral (negative : Bool) (code : Fin Double.infinityCode) :
    ∃ x : Numeral, Double.text (.finite negative code) = signed negative x.text ∧ x.Proper ∧
      Double.codeOfDecimal x.value.digits x.value.exponent = code := by
  by_cases zero : code.val = 0
  · have zeroDigit : ∀ c ∈ ['0'], Text.isDigit c = true := List.forall_mem_singleton.2 rfl
    refine ⟨⟨['0'], ['0'], none⟩, ?_, ⟨zeroDigit, zeroDigit, Or.inl rfl, Or.inl (by simp)⟩, ?_⟩
    · simp only [Double.text, if_pos zero]
      rfl
    · rw [zero]
      rfl
  · have identified := Double.codeOfDecimal_shortest zero code.isLt
    have digits : (Double.shortest code).digits ≠ 0 := fun none => by
      rw [none] at identified
      exact zero identified.symm
    refine ⟨(Double.shortest code).numeral, ?_, Double.numeral_proper digits,
      (Double.codeOfDecimal_numeral _).trans identified⟩
    simp only [Double.text, if_neg zero, Double.layout_eq]
    rfl

/-- The text of a finite number is read as this number. -/
theorem readScalar_finite (negative : Bool) (code : Fin Double.infinityCode) (closes : Closes rest) :
    readScalar (Double.text (.finite negative code) ++ rest) =
      .ok (.ofDouble (.finite negative code), rest) := by
  obtain ⟨x, spelled, proper, rounded⟩ := exists_numeral negative code
  rw [spelled, readScalar_text proper closes, Double.ofDecimal, rounded, Double.ofCode, dif_pos code.isLt]

end ZincModel.Json
