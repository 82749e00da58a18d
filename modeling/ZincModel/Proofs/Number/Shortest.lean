import ZincModel.Number.Shortest
import ZincModel.Proofs.Number.Rounding

/-!
# The shortest decimal identifies its number

The digits that are written for a magnitude are read as this magnitude again (`codeOfDecimal_shortest`). What the
search returns has been tested for that, and taking zeros off its end does not change it. Where the search comes
to nothing, the exact decimal is rounded to the magnitude that it is.
-/

namespace ZincModel.Double

variable {code num den : Nat}

theorem Decimal.isFor_iff {d : Decimal} : d.isFor code = true ↔ codeOfDecimal d.digits d.exponent = code := by
  simp [Decimal.isFor]

/-! ## The search -/

/-- A decimal next to the ratio is only taken if it identifies the magnitude. -/
theorem nearestAt_eq_some {e : Int} {d : Decimal} (h : nearestAt code num den e = some d) :
    codeOfDecimal d.digits d.exponent = code ∧ d.exponent = e := by
  unfold nearestAt at h
  dsimp only at h
  split at h
  · next low high =>
    split at h
    · cases h; exact ⟨Decimal.isFor_iff.1 low, rfl⟩
    split at h
    · cases h; exact ⟨Decimal.isFor_iff.1 high, rfl⟩
    split at h
    · cases h; exact ⟨Decimal.isFor_iff.1 low, rfl⟩
    · cases h; exact ⟨Decimal.isFor_iff.1 high, rfl⟩
  · next low _ => cases h; exact ⟨Decimal.isFor_iff.1 low, rfl⟩
  · next _ high => cases h; exact ⟨Decimal.isFor_iff.1 high, rfl⟩
  · cases h

theorem search_eq_some {fuel : Nat} {e : Int} {d : Decimal} (h : search code num den fuel e = some d) :
    codeOfDecimal d.digits d.exponent = code ∧ e - fuel < d.exponent ∧ d.exponent ≤ e := by
  induction fuel generalizing e with
  | zero => cases h
  | succ fuel ih =>
    rw [search] at h
    cases found : nearestAt code num den e with
    | some d' =>
      rw [found] at h
      cases h
      obtain ⟨identifies, place⟩ := nearestAt_eq_some found
      exact ⟨identifies, by omega, by omega⟩
    | none =>
      rw [found] at h
      obtain ⟨identifies, above, below⟩ := ih h
      exact ⟨identifies, by omega, by omega⟩

theorem leadingExponent_bounds (num den fuel : Nat) (k : Int) :
    k ≤ leadingExponent num den fuel k ∧ leadingExponent num den fuel k ≤ k + fuel := by
  induction fuel generalizing k with
  | zero => simp [leadingExponent]
  | succ fuel ih =>
    rw [leadingExponent]
    split
    · exact ⟨Int.le_refl k, by omega⟩
    · obtain ⟨above, below⟩ := ih (k + 1)
      exact ⟨by omega, by omega⟩

/-! ## Zeros at the end -/

/-- Taking zeros off the end of the digits does not change what a decimal is rounded to. -/
theorem codeOfDecimal_trimmed (fuel : Nat) (d : Decimal) (low : -400 ≤ d.exponent)
    (high : d.exponent + fuel ≤ 400) :
    codeOfDecimal (d.trimmed fuel).digits (d.trimmed fuel).exponent = codeOfDecimal d.digits d.exponent := by
  induction fuel generalizing d with
  | zero => rfl
  | succ fuel ih =>
    rw [Decimal.trimmed]
    split
    · next ends =>
      rw [ih _ (by dsimp only; omega) (by dsimp only; omega)]
      have digits : d.digits = d.digits / 10 * tenTo 1 := (Nat.div_mul_cancel (Nat.dvd_of_mod_eq_zero ends.2)).symm
      have moved := codeOfDecimal_mul_tenTo (n := d.digits / 10) (j := 1) (e := d.exponent) (by omega) (by omega)
      rw [← digits] at moved
      exact moved.symm
    · rfl

/-! ## The exact decimal -/

theorem units_ne_zero (h : code ≠ 0) : units code ≠ 0 := by
  have significand : significand code ≠ 0 := by
    unfold significand
    split
    · exact h
    · exact Nat.ne_of_gt (Nat.lt_of_lt_of_le (Nat.two_pow_pos 52) (Nat.le_add_right _ _))
  exact Nat.mul_ne_zero significand (Nat.two_pow_pos _).ne'

/-- The exact decimal of a magnitude, in units of which there are two to the power of `one` in one. -/
theorem codeOfDecimal_exact {one : Nat} {e : Int} (hone : one = 1074) (he : e = -one) (h : code ≠ 0) :
    codeOfDecimal (units code * Nat.pow 5 one) e = code := by
  have five : 0 < 5 ^ one := Nat.pow_pos (by decide)
  have digits : units code * 5 ^ one ≠ 0 := Nat.mul_ne_zero (units_ne_zero h) five.ne'
  have long : 2 * one ≤ (units code * 5 ^ one).log2 := by
    rw [Nat.le_log2 digits, Nat.pow_mul]
    calc (2 ^ 2) ^ one ≤ 5 ^ one := Nat.pow_le_pow_left (by decide) one
      _ ≤ units code * 5 ^ one := Nat.le_mul_of_pos_left _ (Nat.pos_of_ne_zero (units_ne_zero h))
  change codeOfDecimal (units code * 5 ^ one) e = code
  have whole : e.toNat = 0 := by omega
  have fraction : (-e).toNat = one := by omega
  rw [codeOfDecimal_eq digits (by omega) (by omega), whole, fraction]
  have ten : units code * 5 ^ one * 10 ^ 0 * 2 ^ one = units code * 10 ^ one := by
    rw [Nat.pow_zero, Nat.mul_one, Nat.mul_assoc, ← Nat.mul_pow]
  have power : 10 ^ one ≠ 0 := (Nat.pow_pos (by decide)).ne'
  exact (codeOfRatio_congr power (Nat.two_pow_pos one).ne' ten).trans (codeOfRatio_units hone code)

/-! ## The decimal that is written -/

theorem significand_lt (code : Nat) : significand code < 2 ^ 53 := by
  have rest : code % 2 ^ 52 < 2 ^ 52 := Nat.mod_lt _ (Nat.two_pow_pos 52)
  simp only [significand, Nat.pow_eq]
  split <;> omega

theorem exponent_le (finite : code < infinityCode) : exponent code ≤ 2045 := by
  have bound : code < 2 ^ 52 * 2047 := by
    rw [Nat.mul_comm]
    exact finite
  have block : code / 2 ^ 52 < 2047 := Nat.div_lt_of_lt_mul bound
  simp only [exponent, Nat.pow_eq]
  omega

/-- A finite magnitude is between `2 ^ -1074` and `2 ^ 1024`. -/
theorem log_bounds {log : Int} (h : code ≠ 0) (finite : code < infinityCode)
    (e : log = ((significand code * twoTo (exponent code - 1074)).log2 : Int) -
      (twoTo (1074 - exponent code)).log2) : -1074 ≤ log ∧ log ≤ 1023 := by
  have some : significand code ≠ 0 := left_ne_zero_of_mul (units_ne_zero h)
  have num : significand code * twoTo (exponent code - 1074) ≠ 0 := Nat.mul_ne_zero some (Nat.two_pow_pos _).ne'
  have small : significand code * 2 ^ (exponent code - 1074) < 2 ^ (53 + (exponent code - 1074)) := by
    rw [Nat.pow_add]
    exact Nat.mul_lt_mul_of_pos_right (significand_lt code) (Nat.two_pow_pos _)
  have numLog : (significand code * twoTo (exponent code - 1074)).log2 < 53 + (exponent code - 1074) :=
    (Nat.log2_lt num).2 small
  have denLog : (twoTo (1074 - exponent code)).log2 = 1074 - exponent code := Nat.log2_two_pow
  have := exponent_le finite
  omega

/-- The decimal that is written for a magnitude is rounded to this magnitude. -/
theorem codeOfDecimal_shortest (h : code ≠ 0) (finite : code < infinityCode) :
    codeOfDecimal (shortest code).digits (shortest code).exponent = code := by
  obtain ⟨least, greatest⟩ := log_bounds h finite rfl
  unfold shortest
  dsimp only
  split
  · next d found =>
    obtain ⟨identifies, above, below⟩ := search_eq_some found
    have start := leadingExponent_bounds (significand code * twoTo (exponent code - 1074))
      (twoTo (1074 - exponent code)) 4
      ((((significand code * twoTo (exponent code - 1074)).log2 : Int) - (twoTo (1074 - exponent code)).log2) *
        78913 / 262144)
    rw [codeOfDecimal_trimmed 17 d (by omega) (by omega), identifies]
  · dsimp only
    generalize hone : (1074 : Nat) = one
    exact codeOfDecimal_exact hone.symm (by omega) h

end ZincModel.Double
