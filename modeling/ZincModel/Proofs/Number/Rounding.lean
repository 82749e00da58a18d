import Mathlib.Tactic.Ring
import ZincModel.Number.Double

/-!
# Rounding to double precision

The code of a ratio is found from its leading power of two, the least one above it. Both depend on the value of the
ratio alone (`codeOfRatio_congr`), and a ratio that is a magnitude is rounded to that magnitude
(`codeOfRatio_units`). Decimals are rounded by way of ratios; as long as their exponents are moderate, a zero at
the end of the digits counts as one in the exponent (`codeOfDecimal_mul_tenTo`).
-/

namespace ZincModel.Double

variable {num den num' den' : Nat}

/-! ## The leading power of two -/

/-- The ratio is below this power of two. -/
def Below (num den : Nat) (e : Int) : Prop := num * twoTo (-e).toNat < den * twoTo e.toNat

/-- An exponent may be given as the difference of any two numbers. -/
theorem below_iff {a b : Nat} {e : Int} (h : (a : Int) - b = e) : Below num den e ↔ num * 2 ^ b < den * 2 ^ a := by
  obtain ⟨c, ha, hb⟩ : ∃ c, a = e.toNat + c ∧ b = (-e).toNat + c := ⟨a - e.toNat, by omega, by omega⟩
  have cancel : num * 2 ^ b < den * 2 ^ a ↔ num * 2 ^ (-e).toNat * 2 ^ c < den * 2 ^ e.toNat * 2 ^ c := by
    rw [ha, hb, Nat.pow_add, Nat.pow_add, Nat.mul_assoc, Nat.mul_assoc]
  rw [cancel, Nat.mul_lt_mul_right (Nat.two_pow_pos c)]
  rfl

theorem Below.mono {e e' : Int} (h : Below num den e) (le : e ≤ e') : Below num den e' := by
  have wide : ((e.toNat + (e' - e).toNat : Nat) : Int) - ((-e).toNat : Nat) = e' := by omega
  rw [below_iff wide]
  apply Nat.lt_of_lt_of_le h (Nat.mul_le_mul_left _ ?_)
  exact Nat.pow_le_pow_right (by decide) (Nat.le_add_right _ _)

theorem below_mul_right {c : Nat} (hc : 0 < c) (e : Int) : Below (num * c) (den * c) e ↔ Below num den e := by
  unfold Below
  rw [Nat.mul_right_comm, Nat.mul_right_comm den, Nat.mul_lt_mul_right hc]

/-- The exponent of the leading power of two: the ratio is below this power, but not below the one before. -/
structure IsTop (num den : Nat) (t : Int) : Prop where
  below : Below num den t
  least : ¬ Below num den (t - 1)

theorem IsTop.unique {t t' : Int} (h : IsTop num den t) (h' : IsTop num den t') : t = t' := by
  have le : t ≤ t' := Int.not_lt.1 fun lt => h.least (h'.below.mono (by omega))
  have ge : t' ≤ t := Int.not_lt.1 fun lt => h'.least (h.below.mono (by omega))
  exact Int.le_antisymm le ge

/-- The exponent of the leading power is at most that of any power above the ratio. -/
theorem IsTop.le {t e : Int} (h : IsTop num den t) (below : Below num den e) : t ≤ e :=
  Int.not_lt.1 fun lt => h.least (below.mono (by omega))

/-- Numerator and denominator lie between powers of two, which locate the ratio up to a factor of four. -/
theorem below_log2 (hn : num ≠ 0) (hd : den ≠ 0) :
    Below num den ((num.log2 : Int) - den.log2 + 1) ∧ ¬ Below num den ((num.log2 : Int) - den.log2 - 1) := by
  have num_ge : 2 ^ num.log2 ≤ num := Nat.log2_self_le hn
  have num_lt : num < 2 ^ (num.log2 + 1) := Nat.lt_log2_self
  have den_ge : 2 ^ den.log2 ≤ den := Nat.log2_self_le hd
  have den_lt : den < 2 ^ (den.log2 + 1) := Nat.lt_log2_self
  constructor
  · have e : ((num.log2 + 1 : Nat) : Int) - (den.log2 : Nat) = (num.log2 : Int) - den.log2 + 1 := by omega
    rw [below_iff e]
    calc num * 2 ^ den.log2 < 2 ^ (num.log2 + 1) * 2 ^ den.log2 :=
          Nat.mul_lt_mul_of_pos_right num_lt (Nat.two_pow_pos _)
      _ = 2 ^ den.log2 * 2 ^ (num.log2 + 1) := Nat.mul_comm _ _
      _ ≤ den * 2 ^ (num.log2 + 1) := Nat.mul_le_mul_right _ den_ge
  · have e : (num.log2 : Int) - (den.log2 + 1 : Nat) = (num.log2 : Int) - den.log2 - 1 := by omega
    rw [below_iff e, Nat.not_lt]
    calc den * 2 ^ num.log2 ≤ 2 ^ (den.log2 + 1) * 2 ^ num.log2 := Nat.mul_le_mul_right _ den_lt.le
      _ = 2 ^ num.log2 * 2 ^ (den.log2 + 1) := Nat.mul_comm _ _
      _ ≤ num * 2 ^ (den.log2 + 1) := Nat.mul_le_mul_right _ num_ge

/-! ## Quotients -/

/-- Rounding depends on the value of the quotient alone. -/
theorem roundQuotient_mul_right {c : Nat} (hc : 0 < c) (num den : Nat) :
    roundQuotient (num * c) (den * c) = roundQuotient num den := by
  have quotient : num * c / (den * c) = num / den := Nat.mul_div_mul_right _ _ hc
  have rest : 2 * (num * c % (den * c)) = 2 * (num % den) * c := by
    rw [Nat.mul_mod_mul_right, Nat.mul_assoc]
  simp only [roundQuotient, quotient, rest, Nat.mul_lt_mul_right hc]

/-- What is a whole number is not rounded. -/
theorem roundQuotient_mul_self (n : Nat) {den : Nat} (hd : 0 < den) : roundQuotient (n * den) den = n := by
  simp [roundQuotient, Nat.mul_div_cancel n hd, hd]

/-! ## Ratios -/

/-- The code of a ratio by its leading power of two. -/
theorem codeOfRatio_eq (hn : num ≠ 0) (hd : den ≠ 0) {t : Int} (top : IsTop num den t) :
    codeOfRatio num den =
      (max (t - 53) (-1074) + 1074).toNat * twoTo 52 +
        roundQuotient (num * twoTo (-max (t - 53) (-1074)).toNat) (den * twoTo (max (t - 53) (-1074)).toNat) := by
  obtain ⟨above, under⟩ := below_log2 hn hd
  have found : (if num * twoTo (-((num.log2 : Int) - den.log2)).toNat <
      den * twoTo ((num.log2 : Int) - den.log2).toNat then (num.log2 : Int) - den.log2
      else (num.log2 : Int) - den.log2 + 1) = t := by
    split
    · next below => exact IsTop.unique ⟨below, under⟩ top
    · next least => exact IsTop.unique ⟨above, by rwa [Int.add_sub_cancel]⟩ top
  simp only [codeOfRatio, if_neg hn, decide_eq_true_eq, found]

/-- Every ratio has a leading power of two. -/
theorem exists_isTop (hn : num ≠ 0) (hd : den ≠ 0) : ∃ t, IsTop num den t := by
  obtain ⟨above, under⟩ := below_log2 hn hd
  by_cases below : Below num den ((num.log2 : Int) - den.log2)
  · exact ⟨_, below, under⟩
  · exact ⟨_, above, by rwa [Int.add_sub_cancel]⟩

theorem codeOfRatio_mul_right {c : Nat} (hc : 0 < c) (hd : den ≠ 0) :
    codeOfRatio (num * c) (den * c) = codeOfRatio num den := by
  by_cases hn : num = 0
  · simp [codeOfRatio, hn]
  · obtain ⟨t, top⟩ := exists_isTop hn hd
    have top' : IsTop (num * c) (den * c) t :=
      ⟨(below_mul_right hc _).2 top.below, fun h => top.least ((below_mul_right hc _).1 h)⟩
    rw [codeOfRatio_eq hn hd top, codeOfRatio_eq (Nat.mul_ne_zero hn hc.ne') (Nat.mul_ne_zero hd hc.ne') top',
      Nat.mul_right_comm num, Nat.mul_right_comm den, roundQuotient_mul_right hc]

/-- The code of a ratio depends on its value alone. -/
theorem codeOfRatio_congr (hd : den ≠ 0) (hd' : den' ≠ 0) (h : num * den' = num' * den) :
    codeOfRatio num den = codeOfRatio num' den' := by
  rw [← codeOfRatio_mul_right (Nat.pos_of_ne_zero hd') hd, h, Nat.mul_comm den,
    codeOfRatio_mul_right (Nat.pos_of_ne_zero hd) hd']

/-! ## Magnitudes -/

/-- Magnitudes below the least normal one. The number of units in one is given as a variable, so that its power
is not computed. -/
theorem codeOfRatio_of_lt {code one : Nat} (hone : one = 1074) (h : code < 2 ^ 52) :
    codeOfRatio code (twoTo one) = code := by
  by_cases zero : code = 0
  · simp [codeOfRatio, zero]
  have den : twoTo one ≠ 0 := (Nat.two_pow_pos one).ne'
  obtain ⟨t, top⟩ := exists_isTop zero den
  have small : Below code (twoTo one) (-1022) := by
    have e : ((0 : Nat) : Int) - (one - 52 : Nat) = -1022 := by omega
    rw [below_iff e]
    calc code * 2 ^ (one - 52) < 2 ^ 52 * 2 ^ (one - 52) := Nat.mul_lt_mul_of_pos_right h (Nat.two_pow_pos _)
      _ = 2 ^ (52 + (one - 52)) := (Nat.pow_add 2 52 (one - 52)).symm
      _ = 2 ^ one * 2 ^ 0 := by rw [Nat.add_sub_cancel' (by omega), Nat.pow_zero, Nat.mul_one]
  have shift : max (t - 53) (-1074) = -1074 := by
    have := top.le small
    omega
  rw [codeOfRatio_eq zero den top, shift, show (-(-1074 : Int)).toNat = one from hone.symm]
  have scaled : roundQuotient (code * twoTo one) (twoTo one * twoTo 0) = code := by
    rw [show twoTo one * twoTo 0 = twoTo one from Nat.mul_one _]
    exact roundQuotient_mul_self code (Nat.two_pow_pos one)
  exact (Nat.zero_add _).trans scaled

/-- Normal magnitudes, of exponent `k`. -/
theorem codeOfRatio_of_ge {k m one : Nat} (hone : one = 1074) (hm : m < 2 ^ 52) :
    codeOfRatio ((2 ^ 52 + m) * 2 ^ k) (twoTo one) = (k + 1) * 2 ^ 52 + m := by
  have den : twoTo one ≠ 0 := (Nat.two_pow_pos one).ne'
  have num : (2 ^ 52 + m) * 2 ^ k ≠ 0 := Nat.mul_ne_zero (by omega) (Nat.two_pow_pos k).ne'
  have top : IsTop ((2 ^ 52 + m) * 2 ^ k) (twoTo one) (k - 1021) := by
    constructor
    · rw [below_iff (show ((53 + k : Nat) : Int) - (one : Nat) = k - 1021 by omega), Nat.mul_comm (twoTo one)]
      apply Nat.mul_lt_mul_of_pos_right _ (Nat.two_pow_pos one)
      rw [Nat.pow_add]
      exact Nat.mul_lt_mul_of_pos_right (by omega) (Nat.two_pow_pos k)
    · rw [below_iff (show ((52 + k : Nat) : Int) - (one : Nat) = k - 1021 - 1 by omega), Nat.not_lt,
        Nat.mul_comm (twoTo one)]
      apply Nat.mul_le_mul_right
      rw [Nat.pow_add]
      exact Nat.mul_le_mul_right _ (Nat.le_add_right _ _)
  have shift : max ((k : Int) - 1021 - 53) (-1074) = k - one := by omega
  rw [codeOfRatio_eq num den top, shift]
  -- the numerator at this shift is the significand times the denominator
  have scaled : (2 ^ 52 + m) * 2 ^ k * twoTo (-((k : Int) - one)).toNat =
      (2 ^ 52 + m) * (twoTo one * twoTo ((k : Int) - one).toNat) := by
    have exponents : k + (-((k : Int) - one)).toNat = one + ((k : Int) - one).toNat := by omega
    rw [Nat.mul_assoc]
    apply congrArg
    change 2 ^ k * 2 ^ _ = 2 ^ one * 2 ^ _
    rw [← Nat.pow_add, ← Nat.pow_add, exponents]
  have power : 0 < twoTo one * twoTo ((k : Int) - one).toNat :=
    Nat.mul_pos (Nat.two_pow_pos _) (Nat.two_pow_pos _)
  have back : ((k : Int) - one + 1074).toNat = k := by omega
  rw [scaled, roundQuotient_mul_self _ power, back]
  change k * 2 ^ 52 + (2 ^ 52 + m) = (k + 1) * 2 ^ 52 + m
  ring

/-- A magnitude is rounded to itself. -/
theorem codeOfRatio_units {one : Nat} (hone : one = 1074) (code : Nat) :
    codeOfRatio (units code) (twoTo one) = code := by
  by_cases h : code < 2 ^ 52
  · have exponent : exponent code = 0 := by
      have : code / 2 ^ 52 = 0 := Nat.div_eq_of_lt h
      simp only [Double.exponent, Nat.pow_eq, this]
    have plain : units code = code := by
      simp only [units, significand, exponent, Nat.pow_eq, if_pos h, Nat.pow_zero, Nat.mul_one]
    rw [plain, codeOfRatio_of_lt hone h]
  · have split : code = (code / 2 ^ 52 - 1 + 1) * 2 ^ 52 + code % 2 ^ 52 := by
      have := Nat.div_add_mod' code (2 ^ 52)
      have : 1 ≤ code / 2 ^ 52 := (Nat.one_le_div_iff (Nat.two_pow_pos 52)).2 (Nat.not_lt.1 h)
      rw [Nat.sub_add_cancel this]
      omega
    have parts : units code = (2 ^ 52 + code % 2 ^ 52) * 2 ^ (code / 2 ^ 52 - 1) := by
      simp only [units, significand, Double.exponent, Nat.pow_eq, if_neg h]
    rw [parts, codeOfRatio_of_ge hone (Nat.mod_lt _ (Nat.two_pow_pos 52)), ← split]

/-! ## Decimals -/

/-- Where the exponent is moderate, the code of a decimal is that of a ratio. -/
theorem codeOfDecimal_eq {n : Nat} {e : Int} (hn : n ≠ 0) (high : e ≤ 400) (low : -400 ≤ e + n.log2 / 3) :
    codeOfDecimal n e = codeOfRatio (n * tenTo e.toNat) (tenTo (-e).toNat) := by
  rw [codeOfDecimal, if_neg hn, if_neg (Int.not_lt.2 high), if_neg (Int.not_lt.2 low)]

/-- Zeros at the end of the digits count in the exponent. -/
theorem codeOfDecimal_mul_tenTo {n j : Nat} {e : Int} (low : -400 ≤ e + j + n.log2 / 3) (high : e + j ≤ 400) :
    codeOfDecimal (n * tenTo j) e = codeOfDecimal n (e + j) := by
  by_cases hn : n = 0
  · simp [codeOfDecimal, hn]
  have power (i : Nat) : tenTo i ≠ 0 := (Nat.pow_pos (by decide)).ne'
  have longer : n.log2 + 3 * j ≤ (n * tenTo j).log2 := by
    rw [Nat.le_log2 (Nat.mul_ne_zero hn (power j)), Nat.pow_add, Nat.pow_mul]
    exact Nat.mul_le_mul (Nat.log2_self_le hn) (Nat.pow_le_pow_left (by decide) j)
  rw [codeOfDecimal_eq (Nat.mul_ne_zero hn (power j)) (by omega) (by omega),
    codeOfDecimal_eq hn high low]
  apply codeOfRatio_congr (power _) (power _)
  have exponents : j + e.toNat + (-(e + j)).toNat = (e + j).toNat + (-e).toNat := by omega
  rw [Nat.mul_assoc n, Nat.mul_assoc n, Nat.mul_assoc n]
  change n * (10 ^ j * 10 ^ _ * 10 ^ _) = n * (10 ^ _ * 10 ^ _)
  rw [← Nat.pow_add, ← Nat.pow_add, ← Nat.pow_add, exponents]

/-- A decimal that is neither zero nor beyond all magnitudes has a moderate exponent. -/
theorem codeOfDecimal_bounds {n : Nat} {e : Int} (some : codeOfDecimal n e ≠ 0)
    (finite : codeOfDecimal n e < infinityCode) :
    e ≤ 400 ∧ -400 ≤ e + n.log2 / 3 := by
  unfold codeOfDecimal at some finite
  split_ifs at some finite with zero high low
  · exact absurd rfl some
  · exact absurd finite (Nat.lt_irrefl _)
  · exact absurd rfl some
  · omega

end ZincModel.Double
