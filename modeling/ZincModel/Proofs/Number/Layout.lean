import ZincModel.Number.Reading
import ZincModel.Proofs.Number.Shortest

/-!
# The numeral of a number

A number is written as digits with a fraction, an exponent or both. Such a numeral is taken apart by the readers
at its point and at the letter of its exponent; its value is told from the parts (`Numeral.value`). The layout of
a decimal is the text of a numeral (`layout_eq`), whose value is the decimal but for zeros at the end
(`codeOfDecimal_numeral`).
-/

namespace ZincModel.Double

open Text

/-! ## Digits -/

/-- The text does not go on with a digit. -/
def Stops (rest : List Char) : Prop := ∀ c, rest.head? = some c → isDigit c = false

theorem Stops.nil : Stops [] := fun c h => by cases h

theorem Stops.cons {c : Char} {rest : List Char} (h : isDigit c = false) : Stops (c :: rest) := by
  intro c' e
  cases e
  exact h

theorem takeDigits_append {ds rest : List Char} (digits : ∀ c ∈ ds, isDigit c = true) (stops : Stops rest) :
    takeDigits (ds ++ rest) = (ds, rest) := by
  have first : rest.takeWhile isDigit = [] ∧ rest.dropWhile isDigit = rest := by
    cases rest with
    | nil => exact ⟨rfl, rfl⟩
    | cons c rest => simp [stops c rfl]
  simp only [takeDigits, List.takeWhile_append_of_pos digits, List.dropWhile_append_of_pos digits, first,
    List.append_nil]

theorem isDigit_toDigits (n : Nat) : ∀ c ∈ Nat.toDigits 10 n, isDigit c = true := fun c hc => by
  have same : isDigit c = c.isDigit := by
    simp only [isDigit, Char.isDigit]
    rfl
  rw [same]
  exact Nat.isDigit_of_mem_toDigits (by decide) (by decide) hc

/-- The digits of a number other than zero do not start with a zero. -/
theorem toDigits_head {n : Nat} (hn : n ≠ 0) : ∃ c ds, Nat.toDigits 10 n = c :: ds ∧ c ≠ '0' := by
  induction n using Nat.strongRecOn with
  | _ n ih =>
    by_cases one : n < 10
    · refine ⟨n.digitChar, [], Nat.toDigits_of_lt_base one, fun e => ?_⟩
      have code := Nat.toNat_digitChar_of_lt_ten one
      rw [e] at code
      have : '0'.toNat = 48 := rfl
      omega
    · obtain ⟨c, ds, front, ne⟩ := ih (n / 10) (by omega) (by omega)
      exact ⟨c, ds ++ [(n % 10).digitChar], by
        rw [Nat.toDigits_of_base_le (by decide) (by omega), front, List.cons_append], ne⟩

/-! ## Numerals -/

/-- The parts of a numeral. -/
structure Numeral where
  whole : List Char
  /-- The digits behind the point, which is not there without any. -/
  fraction : List Char
  exponent : Option Int

namespace Numeral

/-- An exponent behind its letter, with a sign and at least two digits. -/
def exponentText (e : Int) : List Char :=
  let es := Nat.toDigits 10 e.natAbs
  'e' :: (if e < 0 then '-' else '+') :: (if es.length < 2 then '0' :: es else es)

def text (x : Numeral) : List Char :=
  x.whole ++ (if x.fraction.isEmpty then [] else '.' :: x.fraction) ++ (x.exponent.map exponentText).getD []

/-- The digits with their exponent. -/
def value (x : Numeral) : Decimal :=
  ⟨Nat.ofDigitChars 10 (x.whole ++ x.fraction) 0, x.exponent.getD 0 - x.fraction.length⟩

/-- The parts are what they should be: there are digits in front, of which the first one is not zero unless it is
the only one, and there is a fraction or an exponent. -/
structure Proper (x : Numeral) : Prop where
  whole : ∀ c ∈ x.whole, isDigit c = true
  fraction : ∀ c ∈ x.fraction, isDigit c = true
  first : x.whole = ['0'] ∨ ∃ c ds, x.whole = c :: ds ∧ c ≠ '0'
  some : x.fraction ≠ [] ∨ x.exponent ≠ none

/-- An exponent has a sign and digits behind its letter. -/
theorem exists_exponentText (e : Int) : ∃ es : List Char,
    exponentText e = 'e' :: (if e < 0 then '-' else '+') :: es ∧ (∀ c ∈ es, isDigit c = true) ∧ es ≠ [] ∧
      Nat.ofDigitChars 10 es 0 = e.natAbs := by
  refine ⟨_, rfl, ?_⟩
  split
  · refine ⟨List.forall_mem_cons.2 ⟨rfl, isDigit_toDigits _⟩, by simp, ?_⟩
    rw [Nat.ofDigitChars_cons]
    exact Nat.ofDigitChars_ten_toDigits
  · exact ⟨isDigit_toDigits _, Nat.toDigits_ne_nil, Nat.ofDigitChars_ten_toDigits⟩

theorem takeExponent?_exponentText (e : Int) {rest : List Char} (stops : Stops rest) :
    takeExponent? (exponentText e ++ rest) = some (e, rest) := by
  obtain ⟨es, spelled, digits, some, value⟩ := exists_exponentText e
  have taken := takeDigits_append digits stops
  rw [spelled]
  obtain ⟨c, cs, rfl⟩ := List.exists_cons_of_ne_nil some
  by_cases negative : e < 0
  · have sign : -(e.natAbs : Int) = e := by omega
    simp only [if_pos negative, List.cons_append, takeExponent?, beq_self_eq_true, Bool.true_or,
      if_true] at taken ⊢
    simp only [taken, value, sign]
  · have sign : (e.natAbs : Int) = e := by omega
    simp only [if_neg negative, List.cons_append, takeExponent?, beq_self_eq_true, Bool.true_or,
      if_true] at taken ⊢
    simp only [taken, value, Bool.false_eq_true, if_false, sign]

end Numeral

/-! ## The layout of a decimal -/

/-- The numeral that is laid out for a decimal. -/
def Decimal.numeral (d : Decimal) : Numeral :=
  let ds := Nat.toDigits 10 d.digits
  let point : Int := ds.length + d.exponent
  if -4 < point ∧ point ≤ 16 then
    if point ≤ 0 then ⟨['0'], List.replicate (-point).toNat '0' ++ ds, none⟩
    else if (ds.length : Int) ≤ point then ⟨ds ++ List.replicate (point - ds.length).toNat '0', ['0'], none⟩
    else ⟨ds.take point.toNat, ds.drop point.toNat, none⟩
  else ⟨ds.take 1, ds.drop 1, some (point - 1)⟩

theorem layout_eq (d : Decimal) : d.layout = d.numeral.text := by
  have some : Nat.toDigits 10 d.digits ≠ [] := Nat.toDigits_ne_nil
  unfold Decimal.layout Decimal.numeral
  dsimp only
  split
  · split
    · simp [Numeral.text, some]
    split
    · simp [Numeral.text]
    · next short =>
      have behind : ¬ (Nat.toDigits 10 d.digits).length ≤
          ((Nat.toDigits 10 d.digits).length + d.exponent).toNat := by
        omega
      simp [Numeral.text, behind]
  · obtain ⟨c, ds, e⟩ := List.exists_cons_of_ne_nil some
    rw [e]
    cases ds with
    | nil => simp [Numeral.text, Numeral.exponentText]
    | cons c' ds => simp [Numeral.text, Numeral.exponentText]

theorem numeral_proper {d : Decimal} (hd : d.digits ≠ 0) : d.numeral.Proper := by
  have zero : ∀ c ∈ ['0'], isDigit c = true := List.forall_mem_singleton.2 rfl
  have zeros (k : Nat) : ∀ c ∈ List.replicate k '0', isDigit c = true := fun c hc => by
    rw [List.eq_of_mem_replicate hc]
    rfl
  have digits := isDigit_toDigits d.digits
  obtain ⟨c, ds, e, ne⟩ := toDigits_head hd
  unfold Decimal.numeral
  rw [e] at digits ⊢
  dsimp only
  split
  · split
    · refine ⟨zero, fun c' hc' => ?_, Or.inl rfl, Or.inl (by simp)⟩
      exact (List.mem_append.1 hc').elim (zeros _ c') (digits c')
    split
    · refine ⟨fun c' hc' => ?_, zero, Or.inr ⟨c, _, rfl, ne⟩, Or.inl (by simp)⟩
      exact (List.mem_append.1 hc').elim (digits c') (zeros _ c')
    · next positive short =>
      obtain ⟨k, hk⟩ : ∃ k, (((c :: ds).length : Int) + d.exponent).toNat = k + 1 :=
        ⟨(((c :: ds).length : Int) + d.exponent).toNat - 1, by omega⟩
      rw [hk]
      refine ⟨fun c' hc' => digits c' (List.mem_of_mem_take hc'),
        fun c' hc' => digits c' (List.mem_of_mem_drop hc'), Or.inr ⟨c, ds.take k, rfl, ne⟩, Or.inl ?_⟩
      rw [ne_eq, List.drop_eq_nil_iff]
      omega
  · exact ⟨fun c' hc' => digits c' (List.mem_of_mem_take hc'), fun c' hc' => digits c' (List.mem_of_mem_drop hc'),
      Or.inr ⟨c, [], rfl, ne⟩, Or.inr (by simp)⟩

/-- The value of the numeral is the decimal, except that zeros between its digits and the point count as digits. -/
theorem codeOfDecimal_numeral (d : Decimal) :
    codeOfDecimal d.numeral.value.digits d.numeral.value.exponent = codeOfDecimal d.digits d.exponent := by
  have some : 0 < (Nat.toDigits 10 d.digits).length := Nat.length_toDigits_pos
  have whole : Nat.ofDigitChars 10 (Nat.toDigits 10 d.digits) 0 = d.digits := Nat.ofDigitChars_ten_toDigits
  unfold Decimal.numeral
  generalize Nat.toDigits 10 d.digits = ds at some whole
  dsimp only
  split
  · split
    · have digits : Nat.ofDigitChars 10 (['0'] ++ (List.replicate (-(ds.length + d.exponent)).toNat '0' ++ ds)) 0 =
          d.digits := by
        rw [Nat.ofDigitChars_append, Nat.ofDigitChars_append, Nat.ofDigitChars_replicate_zero]
        exact whole
      have exponent : (0 : Int) - (List.replicate (-(ds.length + d.exponent)).toNat '0' ++ ds).length =
          d.exponent := by
        rw [List.length_append, List.length_replicate]
        omega
      simp only [Numeral.value, Option.getD_none, digits, exponent]
    split
    · have zeros : (ds.length + d.exponent - ds.length).toNat = d.exponent.toNat := by omega
      have digits : Nat.ofDigitChars 10
          (ds ++ List.replicate (ds.length + d.exponent - ds.length).toNat '0' ++ ['0']) 0 =
          d.digits * tenTo (d.exponent.toNat + 1) := by
        rw [Nat.ofDigitChars_append, Nat.ofDigitChars_append, whole, Nat.ofDigitChars_replicate_zero, zeros]
        change 10 * (10 ^ d.exponent.toNat * d.digits) = d.digits * 10 ^ (d.exponent.toNat + 1)
        ring
      have moved := codeOfDecimal_mul_tenTo (n := d.digits) (j := d.exponent.toNat + 1) (e := -1) (by omega)
        (by omega)
      have exponent : (-1 : Int) + (d.exponent.toNat + 1 : Nat) = d.exponent := by omega
      rw [exponent] at moved
      simp only [Numeral.value, Option.getD_none, digits]
      exact moved
    · have exponent : (0 : Int) - (ds.drop (ds.length + d.exponent).toNat).length = d.exponent := by
        rw [List.length_drop]
        omega
      simp only [Numeral.value, Option.getD_none, List.take_append_drop, whole, exponent]
  · have exponent : (ds.length + d.exponent - 1 : Int) - (ds.drop 1).length = d.exponent := by
      rw [List.length_drop]
      omega
    simp only [Numeral.value, Option.getD_some, List.take_append_drop, whole, exponent]

end ZincModel.Double
