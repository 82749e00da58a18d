import Mathlib.Data.Bool.AllAny
import Mathlib.Data.List.TakeDrop
import ZincModel.Proofs.Json.Number
import ZincModel.Proofs.Value.Renewed
import ZincModel.Proofs.Yaml.Nodes
import ZincModel.Yaml.Scalar

/-!
# Scalars survive

The texts of null, truth values and numbers can be written plainly and are taken for what they are (`isTyped_form`),
and what is read from the text of a scalar is the scalar again (`scalarOf_form`). The text of a floating-point number
always has a point, so that it is not taken for a text.
-/

namespace ZincModel.Yaml

open Double (Numeral Stops)
open Json (IsWhole signed)
open Text (isDigit)

/-! ## The characters of numbers -/

/-- The characters that numbers are written with. -/
def numberChars : List Char := "0123456789+-.e".toList

theorem mem_digits {c : Char} (h : isDigit c = true) : c ∈ "0123456789".toList := by
  have range : '0'.toNat ≤ c.toNat ∧ c.toNat ≤ '9'.toNat := by
    simpa [isDigit, Char.le_def, UInt32.le_iff_toNat_le] using h
  have zero : '0'.toNat = 48 := rfl
  have nine : '9'.toNat = 57 := rfl
  have ten : ∀ k < 10, Char.ofNat (48 + k) ∈ "0123456789".toList := by decide
  have digit := ten (c.toNat - 48) (by omega)
  rwa [show 48 + (c.toNat - 48) = c.toNat by omega, c.ofNat_toNat] at digit

theorem mem_numberChars {c : Char} (h : isDigit c = true) : c ∈ numberChars := by
  have digits : ∀ c ∈ "0123456789".toList, c ∈ numberChars := List.all_iff_forall_prop.1 (by decide)
  exact digits c (mem_digits h)

theorem numberChars_signed {negative : Bool} {s : List Char} (h : ∀ c ∈ s, c ∈ numberChars) :
    ∀ c ∈ signed negative s, c ∈ numberChars := by
  cases negative with
  | false => exact h
  | true => exact List.forall_mem_cons.2 ⟨by decide, h⟩

section Number

variable {s : List Char} (h : ∀ c ∈ s, c ∈ numberChars)

include h

theorem lower_number : Text.lower s = s := by
  have one : ∀ c ∈ numberChars, c ≠ '\u03A3' ∧ Text.lowerChar c = [c] := List.all_iff_forall_prop.1 (by decide)
  have go (afterCased : Bool) : Text.lowerFrom afterCased s = s := by
    induction s generalizing afterCased with
    | nil => rfl
    | cons c s ih =>
      obtain ⟨here, others⟩ := List.forall_mem_cons.1 h
      obtain ⟨other, small⟩ := one c here
      simp [Text.lowerFrom, other, small, ih others]
  exact go false

theorem plain_number : s.map Integer.plain = s := by
  have one : ∀ c ∈ numberChars, Integer.plain c = c := List.all_iff_forall_prop.1 (by decide)
  exact (List.map_congr_left fun c hc => one c (h c hc)).trans (List.map_id' s)

theorem not_mem_number {c : Char} (other : c ∉ numberChars) : c ∉ s := fun hc => other (h c hc)

end Number

/-! ## Numbers written plainly -/

theorem hasMark_number {s : List Char} (h : ∀ c ∈ s, c ∈ numberChars) (afterGap : Bool) :
    hasMark afterGap s = false := by
  have one : ∀ c ∈ numberChars, c ≠ ':' ∧ c ≠ '#' := List.all_iff_forall_prop.1 (by decide)
  induction s generalizing afterGap with
  | nil => rfl
  | cons c s ih =>
    obtain ⟨here, others⟩ := List.forall_mem_cons.1 h
    obtain ⟨colon, sign⟩ := one c here
    simp [hasMark, colon, sign, ih others (isGap c)]

/-- A number, which starts with a digit, perhaps behind a sign, can be written plainly. -/
theorem allowsPlain_number {negative : Bool} {d : Char} {s : List Char} (digit : isDigit d = true)
    (h : ∀ c ∈ s, c ∈ numberChars) : allowsPlain (signed negative (d :: s)) = true := by
  have all : ∀ c ∈ signed negative (d :: s), c ∈ numberChars :=
    numberChars_signed (List.forall_mem_cons.2 ⟨mem_numberChars digit, h⟩)
  have special : (signed negative (d :: s)).any isSpecial = false := by
    have one : ∀ c ∈ numberChars, isSpecial c = false := List.all_iff_forall_prop.1 (by decide)
    exact List.any_eq_false.2 fun c hc => by simp [one c (all c hc)]
  have newline : (signed negative (d :: s)).contains '\n' = false := by
    simpa using not_mem_number all (c := '\n') (by decide)
  have last : (signed negative (d :: s)).getLast? ≠ some ' ' := fun e =>
    not_mem_number all (c := ' ') (by decide) (List.mem_of_getLast? e)
  have start : ∀ c ∈ "0123456789".toList, isGap c = false ∧ (c == '-') = false ∧ (c == '.') = false ∧
      startsMark [c] = false ∧ c ≠ '?' ∧ c ≠ ':' := by
    exact List.all_iff_forall_prop.1 (by decide)
  obtain ⟨gap, dash, dot, mark, query, colon⟩ := start d (mem_digits digit)
  have marked : startsMark (signed negative (d :: s)) = false := by
    cases negative with
    | false => simpa [signed, startsMark, dash, query, colon] using mark
    | true => simp [signed, startsMark, atGap, gap]
  have first : (signed negative (d :: s)).head? ≠ some ' ' := fun e =>
    not_mem_number all (c := ' ') (by decide) (List.mem_of_mem_head? e)
  have dashes : "---".toList.isPrefixOf (signed negative (d :: s)) = false := by
    cases negative <;> simp [signed, List.isPrefixOf, BEq.comm (a := '-') (b := d), dash]
  have dots : "...".toList.isPrefixOf (signed negative (d :: s)) = false := by
    cases negative <;> simp [signed, List.isPrefixOf, BEq.comm (a := '.') (b := d), dot]
  simp only [allowsPlain, special, newline, beq_eq_false_iff_ne.2 first, beq_eq_false_iff_ne.2 last, dashes, dots,
    marked, hasMark_number all, Bool.or_false, Bool.not_false]

/-! ## The kinds of numbers -/

theorem isOneOf_eq_false {words : List String} {c : Char} {s : List Char}
    (h : ∀ w ∈ words, w.toList.head? ≠ none ∧ w.toList.head? ≠ some c) : isOneOf words (c :: s) = false := by
  simp only [isOneOf, List.any_eq_false, Bool.and_eq_true, not_and]
  intro w hw isPrefix
  obtain ⟨nonempty, other⟩ := h w hw
  cases e : w.toList with
  | nil => exact absurd (by rw [e]; rfl) nonempty
  | cons x r =>
    rw [e] at isPrefix other
    simp only [List.isPrefixOf, Bool.and_eq_true, beq_iff_eq] at isPrefix
    exact absurd (congrArg some isPrefix.1) other

theorem dropWhile_run {p : Char → Bool} {ds t : List Char} (digits : ∀ c ∈ ds, p c = true)
    (stops : ∀ c, t.head? = some c → p c = false) : (ds ++ t).dropWhile p = t := by
  rw [List.dropWhile_append_of_pos digits]
  cases t with
  | nil => rfl
  | cons c t => simp [stops c rfl]

theorem dropRun_digits {ds t : List Char} (digits : ∀ c ∈ ds, isDigit c = true) (nonempty : ds ≠ [])
    (stops : ∀ c, t.head? = some c → isDigitOr_ c = false) : dropRun isDigit isDigitOr_ (ds ++ t) = some t := by
  obtain ⟨d, ds, rfl⟩ := List.exists_cons_of_ne_nil nonempty
  obtain ⟨first, others⟩ := List.forall_mem_cons.1 digits
  have rest : (ds ++ t).dropWhile isDigitOr_ = t :=
    dropWhile_run (fun c hc => by simp [isDigitOr_, others c hc]) stops
  simp [dropRun, first, rest]

theorem IsWhole.exists_cons {ds : List Char} (h : IsWhole ds) : ∃ d s, ds = d :: s ∧ d ∈ "0123456789".toList := by
  obtain ⟨digits, rfl | ⟨d, s, rfl, -⟩⟩ := h
  · exact ⟨_, _, rfl, by decide⟩
  · exact ⟨d, s, rfl, mem_digits (digits d List.mem_cons_self)⟩

theorem dropSign_signed (negative : Bool) {d : Char} {s : List Char} (digit : d ∈ "0123456789".toList) :
    dropSign (signed negative (d :: s)) = d :: s := by
  have other : ∀ c ∈ "0123456789".toList, c ≠ '+' ∧ c ≠ '-' := List.all_iff_forall_prop.1 (by decide)
  obtain ⟨plus, minus⟩ := other d digit
  cases negative with
  | true => rfl
  | false =>
    unfold dropSign signed
    split
    · next e => exact absurd (List.cons.inj e).1 plus
    · next e => exact absurd (List.cons.inj e).1 minus
    · rfl

/-- A number is no truth value. -/
theorem isBool_number (negative : Bool) {d : Char} {s : List Char} (digit : d ∈ "0123456789".toList) :
    isBool (signed negative (d :: s)) = false := by
  have letters : ∀ w ∈ ["yes", "Yes", "YES", "no", "No", "NO", "true", "True", "TRUE", "false", "False", "FALSE",
      "on", "On", "ON", "off", "Off", "OFF"], ∀ c ∈ numberChars, w.toList.head? ≠ none ∧ w.toList.head? ≠ some c := by
    intro w hw
    refine List.all_iff_forall_prop.1 ?_
    revert w hw
    exact List.all_iff_forall_prop.1 (by decide)
  have known : ∀ c ∈ "0123456789".toList, c ∈ numberChars := List.all_iff_forall_prop.1 (by decide)
  cases negative with
  | false => exact isOneOf_eq_false fun w hw => letters w hw d (known d digit)
  | true => exact isOneOf_eq_false fun w hw => letters w hw '-' (by decide)

/-- A number does not start with a point. -/
theorem not_pointed (negative : Bool) {d : Char} {s : List Char} (digit : d ∈ "0123456789".toList) :
    isFraction (signed negative (d :: s)) = false ∧ isOneOf [".inf", ".Inf", ".INF"] (d :: s) = false ∧
      isOneOf [".nan", ".NaN", ".NAN"] (signed negative (d :: s)) = false := by
  have points : ∀ w ∈ [".inf", ".Inf", ".INF", ".nan", ".NaN", ".NAN"], ∀ c ∈ '-' :: "0123456789".toList,
      w.toList.head? ≠ none ∧ w.toList.head? ≠ some c := by
    intro w hw
    refine List.all_iff_forall_prop.1 ?_
    revert w hw
    exact List.all_iff_forall_prop.1 (by decide)
  have other : d ≠ '.' := by
    rintro rfl
    exact absurd digit (by decide)
  refine ⟨?_, isOneOf_eq_false fun w hw => points w (List.mem_append_left [".nan", ".NaN", ".NAN"] hw) d
    (.tail _ digit), ?_⟩
  · cases negative with
    | true => rfl
    | false =>
      unfold isFraction signed
      split
      · next e => exact absurd (List.cons.inj e).1 other
      · rfl
  · cases negative with
    | false =>
      exact isOneOf_eq_false fun w hw => points w (List.mem_append_right [".inf", ".Inf", ".INF"] hw) d (.tail _ digit)
    | true =>
      exact isOneOf_eq_false fun w hw => points w (List.mem_append_right [".inf", ".Inf", ".INF"] hw) '-' (.head _)

theorem tagOfPlain_int {ds : List Char} (whole : IsWhole ds) (negative : Bool) :
    tagOfPlain (signed negative ds) = .int := by
  obtain ⟨d, s, rfl, digit⟩ := IsWhole.exists_cons whole
  have isBool := isBool_number negative (s := s) digit
  have dropSign := dropSign_signed negative (s := s) digit
  have run := dropRun_digits (t := []) whole.1 (by simp) (by simp)
  rw [List.append_nil] at run
  have isFloat : isFloat (signed negative (d :: s)) = false := by
    obtain ⟨fraction, inf, nan⟩ := not_pointed negative (s := s) digit
    simp [isFloat, isPointed, isPointedSixties, dropSign, run, fraction, inf, nan]
  have isInt : isInt (signed negative (d :: s)) = true := by
    have decimal : isDecimal (d :: s) = true := by
      rcases whole.2 with e | ⟨c, cs, e, other⟩
      · rw [e]
        rfl
      · unfold isDecimal
        split
        · next e' => exact absurd ((List.cons.inj (e.symm.trans e')).1) other
        · rw [run]
          rfl
    simp [isInt, dropSign, decimal]
  simp [tagOfPlain, isBool, isFloat, isInt]

/-- Nothing is left behind an exponent. -/
theorem atEnd_exponent (exponent : Option Int) :
    atEnd (dropExponent ((exponent.map Numeral.exponentText).getD [])) = true := by
  cases exponent with
  | none => rfl
  | some e =>
    obtain ⟨es, spelled, digits, nonempty, -⟩ := Numeral.exists_exponentText e
    obtain ⟨d, ds, rfl⟩ := List.exists_cons_of_ne_nil nonempty
    obtain ⟨first, others⟩ := List.forall_mem_cons.1 digits
    have rest : ds.dropWhile isDigit = [] := by simpa using dropWhile_run (t := []) others (by simp)
    have sign : ((if e < 0 then '-' else '+') == '-' || (if e < 0 then '-' else '+') == '+') = true := by
      split <;> rfl
    rw [Option.map_some, Option.getD_some, spelled, dropExponent]
    simp only [beq_self_eq_true, Bool.true_or, sign, first, Bool.and_self, if_true, rest]
    rfl

/-- A numeral with a point is taken for a floating-point number. -/
theorem tagOfPlain_float {x : Numeral} (proper : x.Proper) (point : x.fraction ≠ []) (negative : Bool) :
    tagOfPlain (signed negative x.text) = .float := by
  obtain ⟨d, s, whole, digit⟩ := IsWhole.exists_cons (Json.isWhole_numeral proper)
  let exponent := (x.exponent.map Numeral.exponentText).getD []
  have text : x.text = d :: (s ++ '.' :: (x.fraction ++ exponent)) := by
    simp [Numeral.text, point, whole, exponent]
  have isBool : isBool (signed negative x.text) = false := text ▸ isBool_number negative digit
  have dropSign : dropSign (signed negative x.text) = x.text := text ▸ dropSign_signed negative digit
  have run : dropRun isDigit isDigitOr_ x.text = some ('.' :: (x.fraction ++ exponent)) := by
    have digits := proper.whole
    rw [text]
    rw [whole] at digits
    change dropRun isDigit isDigitOr_ ((d :: s) ++ _) = _
    exact dropRun_digits digits (by simp) (by intro c e; cases e; rfl)
  have letter (c : Char) : exponent.head? = some c → isDigitOr_ c = false := by
    simp only [exponent]
    cases x.exponent <;> rintro ⟨⟩
    rfl
  have rest : (x.fraction ++ exponent).dropWhile isDigitOr_ = exponent :=
    dropWhile_run (fun c hc => by simp [isDigitOr_, proper.fraction c hc]) letter
  have isPointed : isPointed (signed negative x.text) = true := by
    simp only [isPointed, dropSign, run, rest]
    exact atEnd_exponent x.exponent
  simp [tagOfPlain, isBool, isFloat, isPointed]

/-! ## Reading numbers -/

theorem digitRun_digits {ds : List Char} (digits : ∀ c ∈ ds, isDigit c = true) (afterDigit : Bool) :
    Integer.digitRun 10 afterDigit ds = some (ds.map (·.toNat - 48), []) := by
  have one : ∀ c ∈ "0123456789".toList, Integer.digitValue? 10 c = some (c.toNat - 48) ∧ c ≠ '_' :=
    List.all_iff_forall_prop.1 (by decide)
  induction ds generalizing afterDigit with
  | nil => rfl
  | cons d ds ih =>
    obtain ⟨first, others⟩ := List.forall_mem_cons.1 digits
    obtain ⟨value, other⟩ := one d (mem_digits first)
    simp [Integer.digitRun, other, value, ih others]

theorem dropBasePrefix_ten (s : List Char) : Integer.dropBasePrefix 10 s = s := by
  unfold Integer.dropBasePrefix
  split
  · rfl
  · rfl

/-- Digits are read as their number. -/
theorem read_digits {ds : List Char} (whole : IsWhole ds) (short : ds.length ≤ Integer.digitLimit) :
    Integer.read 10 ds = .ok (Nat.ofDigitChars 10 ds 0) := by
  obtain ⟨d, s, rfl, digit⟩ := IsWhole.exists_cons whole
  have one : ∀ c ∈ "0123456789".toList, Integer.isSpace c = false ∧ c ≠ '+' ∧ c ≠ '-' :=
    List.all_iff_forall_prop.1 (by decide)
  obtain ⟨space, plus, minus⟩ := one d digit
  have plain : (d :: s).map Integer.plain = d :: s := plain_number fun c hc => mem_numberChars (whole.1 c hc)
  have first : (d :: s).dropWhile Integer.isSpace = d :: s := by simp [space]
  have run := digitRun_digits whole.1 false
  rw [List.map_cons] at run
  have value : (s.map (·.toNat - 48)).foldl (fun n d => 10 * n + d) (d.toNat - 48) =
      Nat.ofDigitChars 10 (d :: s) 0 := by
    rw [List.foldl_map, Nat.ofDigitChars_cons, Nat.mul_zero, Nat.zero_add]
    rfl
  have short : ¬Integer.digitLimit < s.length + 1 := by simpa using short
  unfold Integer.read
  simp [plain, first, plus, minus, dropBasePrefix_ten, run, short, value]

/-- A number is taken apart into its sign and the rest. -/
theorem splitSign_signed {d : Char} {s : List Char} (digit : d ∈ "0123456789".toList) (h : ∀ c ∈ s, c ∈ numberChars)
    (negative : Bool) : splitSign (signed negative (d :: s)) = .ok (negative, d :: s) := by
  have other : ∀ c ∈ numberChars, (c != '_') = true := List.all_iff_forall_prop.1 (by decide)
  have known : ∀ c ∈ "0123456789".toList, c ∈ numberChars ∧ c ≠ '+' ∧ c ≠ '-' := List.all_iff_forall_prop.1 (by decide)
  obtain ⟨first, plus, minus⟩ := known d digit
  have all : ∀ c ∈ d :: s, c ∈ numberChars := List.forall_mem_cons.2 ⟨first, h⟩
  have whole : (d :: s).filter (· != '_') = d :: s := List.filter_eq_self.2 fun c hc => other c (all c hc)
  cases negative with
  | true => simp [splitSign, signed, other d first, List.filter_eq_self.2 fun c hc => other c (h c hc)]
  | false =>
    unfold splitSign signed
    simp [whole, plus, minus]

/-- The numeral of an integer is read as the integer. -/
theorem intOf_numeral {n : Int} (fits : Integer.fits n = true) : intOf (Integer.numeral n) = .ok n := by
  have whole := Json.isWhole_toDigits n.natAbs
  have read := read_digits whole (Json.length_toDigits_le fits)
  have value : Nat.ofDigitChars 10 (Nat.toDigits 10 n.natAbs) 0 = n.natAbs := Nat.ofDigitChars_ten_toDigits
  rw [value] at read
  rw [Json.numeral_eq]
  generalize Nat.toDigits 10 n.natAbs = ds at whole read value
  obtain ⟨d, s, rfl, digit⟩ := IsWhole.exists_cons whole
  have chars : ∀ c ∈ s, c ∈ numberChars := fun c hc => mem_numberChars (whole.1 c (.tail _ hc))
  have sign : (if n < 0 then -(n.natAbs : Int) else n.natAbs) = n := by split <;> omega
  rw [intOf, splitSign_signed digit chars]
  rcases whole.2 with e | ⟨c, cs, e, other⟩
  · rw [e] at value ⊢
    have zero : n = 0 := Int.natAbs_eq_zero.1 value.symm
    simp [zero]
  · have other : d ≠ '0' := (List.cons.inj e).1 ▸ other
    have colon : ':' ∉ d :: s := fun hc => by
      rcases List.mem_cons.1 hc with rfl | hc
      · exact absurd digit (by decide)
      · exact not_mem_number chars (by decide) hc
    generalize (n.natAbs : Int) = size at read sign
    simp [other, colon, readBase, read, sign]

/-! ## Reading floating-point numbers -/

theorem dropUnderscores_number {s : List Char} (h : ∀ c ∈ s, c ∈ numberChars) (afterDigit : Bool) :
    Double.dropUnderscores afterDigit s = some s := by
  have one : ∀ c ∈ numberChars, c ≠ '_' := List.all_iff_forall_prop.1 (by decide)
  induction s generalizing afterDigit with
  | nil => rfl
  | cons c s ih =>
    obtain ⟨first, others⟩ := List.forall_mem_cons.1 h
    simp [Double.dropUnderscores, one c first, ih others]

theorem readUnsigned_text {x : Numeral} (proper : x.Proper) (point : x.fraction ≠ []) (negative : Bool) :
    Double.readUnsigned negative x.text = some (.ofDecimal negative x.value.digits x.value.exponent, []) := by
  obtain ⟨whole, fraction, exponent⟩ := x
  let behind := (exponent.map Numeral.exponentText).getD []
  have text : Numeral.text ⟨whole, fraction, exponent⟩ = whole ++ '.' :: (fraction ++ behind) := by
    simp only [Numeral.text, List.isEmpty_eq_false_iff.2 point, Bool.false_eq_true, if_false, List.append_assoc,
      List.cons_append, behind]
  have stops : Stops behind := by
    cases exponent with
    | none => exact Stops.nil
    | some e => exact Stops.cons rfl
  have takeWhole : Double.takeDigits (whole ++ '.' :: (fraction ++ behind)) = (whole, '.' :: (fraction ++ behind)) :=
    Double.takeDigits_append proper.whole (Stops.cons rfl)
  have takeFraction : Double.takeDigits (fraction ++ behind) = (fraction, behind) :=
    Double.takeDigits_append proper.fraction stops
  have takeExponent : (Double.takeExponent? behind).getD (0, behind) = (exponent.getD 0, []) := by
    cases exponent with
    | none => rfl
    | some e =>
      have taken := Numeral.takeExponent?_exponentText e Stops.nil
      rw [List.append_nil] at taken
      exact congrArg (fun r => Option.getD r _) taken
  rw [text, Double.readUnsigned]
  simp only [takeWhole, takeFraction, takeExponent, List.isEmpty_eq_false_iff.2 point, Bool.and_false,
    Bool.false_eq_true, if_false, Numeral.value]

theorem dropWhile_number {s : List Char} (h : ∀ c ∈ s, c ∈ numberChars) : s.dropWhile Integer.isSpace = s := by
  have one : ∀ c ∈ numberChars, Integer.isSpace c = false := List.all_iff_forall_prop.1 (by decide)
  cases s with
  | nil => rfl
  | cons c s => simp [one c (h c List.mem_cons_self)]

/-- A numeral with a point is read as its value. -/
theorem read?_text {x : Numeral} (proper : x.Proper) (point : x.fraction ≠ []) (h : ∀ c ∈ x.text, c ∈ numberChars) :
    Double.read? x.text = some (.ofDecimal false x.value.digits x.value.exponent) := by
  have read := readUnsigned_text proper point false
  have plain := plain_number h
  have front := dropWhile_number h
  have back := dropWhile_number (s := x.text.reverse) fun c hc => h c (List.mem_reverse.1 hc)
  have underscores := dropUnderscores_number h false
  obtain ⟨d, s, whole, digit⟩ := IsWhole.exists_cons (Json.isWhole_numeral proper)
  obtain ⟨s, text⟩ : ∃ s, x.text = d :: s := ⟨_, by simp [Numeral.text, whole]; rfl⟩
  have one : ∀ c ∈ "0123456789".toList, c ≠ '+' ∧ c ≠ '-' ∧ c.toLower ≠ 'i' ∧ c.toLower ≠ 'n' :=
    List.all_iff_forall_prop.1 (by decide)
  obtain ⟨plus, minus, i, n⟩ := one d digit
  have word : Double.readWord false (d :: s) = none := by simp [Double.readWord, i, n]
  rw [text] at read plain front back underscores ⊢
  simp only [Double.read?, plain, front, back, List.reverse_reverse, underscores]
  simp [plus, minus, word, read]

/-! ## The text of floating-point numbers -/

theorem numberChars_text {x : Numeral} (proper : x.Proper) : ∀ c ∈ x.text, c ∈ numberChars := by
  have exponent : ∀ c ∈ (x.exponent.map Numeral.exponentText).getD [], c ∈ numberChars := by
    cases x.exponent with
    | none => simp
    | some e =>
      obtain ⟨es, spelled, digits, -, -⟩ := Numeral.exists_exponentText e
      rw [Option.map_some, Option.getD_some, spelled]
      refine List.forall_mem_cons.2 ⟨by decide, List.forall_mem_cons.2 ⟨?_, fun c hc => mem_numberChars (digits c hc)⟩⟩
      split <;> decide
  have fraction : ∀ c ∈ (if x.fraction.isEmpty then [] else '.' :: x.fraction), c ∈ numberChars := by
    split
    · simp
    · exact List.forall_mem_cons.2 ⟨by decide, fun c hc => mem_numberChars (proper.fraction c hc)⟩
  simp only [Numeral.text, List.forall_mem_append]
  exact ⟨⟨fun c hc => mem_numberChars (proper.whole c hc), fraction⟩, exponent⟩

theorem floatText_point {negative : Bool} {code : Fin Double.infinityCode}
    (point : '.' ∈ Double.text (.finite negative code)) :
    floatText (.finite negative code) = Double.text (.finite negative code) := by
  simp [floatText, point]

/-- A numeral with an exponent but without a point gets one. -/
theorem floatText_exponent {negative : Bool} {code : Fin Double.infinityCode} {whole : List Char} {e : Int}
    (text : Double.text (.finite negative code) = signed negative (Numeral.text ⟨whole, [], some e⟩))
    (digits : ∀ c ∈ whole, isDigit c = true) :
    floatText (.finite negative code) = signed negative (Numeral.text ⟨whole, ['0'], some e⟩) := by
  obtain ⟨es, spelled, exponent, -, -⟩ := Numeral.exists_exponentText e
  let behind := (if e < 0 then '-' else '+') :: es
  have one : ∀ c ∈ "0123456789".toList, c ≠ '.' ∧ (c != 'e') = true := List.all_iff_forall_prop.1 (by decide)
  have spelled' : Double.text (.finite negative code) = signed negative whole ++ 'e' :: behind := by
    simp [text, Numeral.text, spelled, signed, behind]
  have unmarked : ∀ c ∈ signed negative whole, c ≠ '.' ∧ (c != 'e') = true := by
    have whole : ∀ c ∈ whole, c ≠ '.' ∧ (c != 'e') = true := fun c hc => one c (mem_digits (digits c hc))
    cases negative with
    | false => exact whole
    | true => exact List.forall_mem_cons.2 ⟨by decide, whole⟩
  have noPoint : '.' ∉ signed negative whole ++ 'e' :: behind := by
    intro hc
    simp only [List.mem_append, List.mem_cons, behind] at hc
    rcases hc with hc | hc | hc | hc
    · exact (unmarked _ hc).1 rfl
    · cases hc
    · split at hc <;> cases hc
    · exact (one _ (mem_digits (exponent _ hc))).1 rfl
  have split : (signed negative whole ++ 'e' :: behind).span (· != 'e') = (signed negative whole, 'e' :: behind) := by
    rw [List.span_eq_takeWhile_dropWhile, List.takeWhile_append_of_pos fun c hc => (unmarked c hc).2,
      List.dropWhile_append_of_pos fun c hc => (unmarked c hc).2]
    simp
  have text' : Numeral.text ⟨whole, ['0'], some e⟩ = whole ++ ('.' :: '0' :: 'e' :: behind) := by
    simp [Numeral.text, spelled, behind]
  rw [floatText, spelled', if_neg (by simpa using noPoint), split, text']
  · simp [signed]
  · intro e
    cases e
  · intro sign e
    cases e

/-- A finite number is written as a numeral with a point, which is rounded to the number. -/
theorem exists_floatText (negative : Bool) (code : Fin Double.infinityCode) :
    ∃ x : Numeral, floatText (.finite negative code) = signed negative x.text ∧ x.Proper ∧ x.fraction ≠ [] ∧
      Double.codeOfDecimal x.value.digits x.value.exponent = code := by
  have zeroDigit : ∀ c ∈ ['0'], isDigit c = true := List.forall_mem_singleton.2 rfl
  by_cases zero : code.val = 0
  · have text : Double.text (.finite negative code) = signed negative (Numeral.text ⟨['0'], ['0'], none⟩) := by
      simp only [Double.text, if_pos zero]
      rfl
    refine ⟨_, (floatText_point ?_).trans text, ⟨zeroDigit, zeroDigit, .inl rfl, .inl (by simp)⟩, by simp, ?_⟩
    · rw [text]
      cases negative <;> decide
    · rw [zero]
      rfl
  obtain ⟨x, text, proper, rounded⟩ := Json.exists_numeral negative code
  by_cases point : x.fraction = []
  · obtain ⟨whole, fraction, exponent⟩ := x
    cases point
    obtain ⟨e, rfl⟩ := Option.ne_none_iff_exists'.1 (proper.some.resolve_left (by simp))
    refine ⟨⟨whole, ['0'], some e⟩, floatText_exponent text proper.whole,
      ⟨proper.whole, zeroDigit, proper.first, .inl (by simp)⟩, by simp, ?_⟩
    -- a zero behind the point counts as one in the exponent
    have bounds := Double.codeOfDecimal_bounds (rounded ▸ zero) (rounded ▸ code.isLt)
    have digits : Nat.ofDigitChars 10 (whole ++ ['0']) 0 = Nat.ofDigitChars 10 whole 0 * tenTo 1 := by
      rw [Nat.ofDigitChars_append]
      exact Nat.mul_comm _ _
    simp only [Numeral.value, List.append_nil, Option.getD_some, List.length_nil, Nat.cast_zero, Int.sub_zero]
      at rounded bounds
    have moved := Double.codeOfDecimal_mul_tenTo (n := Nat.ofDigitChars 10 whole 0) (j := 1) (e := e - 1) (by omega)
      (by omega)
    simp only [Numeral.value, Option.getD_some, List.length_singleton, digits]
    rw [← rounded]
    simpa using moved
  · refine ⟨x, (floatText_point ?_).trans text, proper, point, rounded⟩
    rw [text]
    cases negative <;> simp [signed, Numeral.text, point]

/-! ## Scalars -/

/-- The text of a number is taken for one, and can be written plainly. -/
theorem numeral_plain (n : Int) :
    tagOfPlain (Integer.numeral n) = .int ∧ allowsPlain (Integer.numeral n) = true := by
  rw [Json.numeral_eq]
  have whole := Json.isWhole_toDigits n.natAbs
  have all : ∀ c ∈ Nat.toDigits 10 n.natAbs, c ∈ numberChars := fun c hc => mem_numberChars (whole.1 c hc)
  refine ⟨tagOfPlain_int whole _, ?_⟩
  obtain ⟨d, s, e, -⟩ := IsWhole.exists_cons whole
  rw [e] at all ⊢
  exact allowsPlain_number (whole.1 d (e ▸ List.mem_cons_self)) (List.forall_mem_cons.1 all).2

theorem floatText_plain (negative : Bool) (code : Fin Double.infinityCode) :
    tagOfPlain (floatText (.finite negative code)) = .float ∧
      allowsPlain (floatText (.finite negative code)) = true := by
  obtain ⟨x, text, proper, point, -⟩ := exists_floatText negative code
  have all := numberChars_text proper
  rw [text]
  refine ⟨tagOfPlain_float proper point _, ?_⟩
  obtain ⟨d, s, e, digit⟩ := IsWhole.exists_cons (Json.isWhole_numeral proper)
  obtain ⟨s', text⟩ : ∃ s', x.text = d :: s' := ⟨_, by simp [Numeral.text, e]; rfl⟩
  rw [text] at all ⊢
  exact allowsPlain_number (proper.whole d (e ▸ List.mem_cons_self)) (List.forall_mem_cons.1 all).2

/-- What is not a text is taken for what it is where it is written plainly. -/
theorem form_plain {v : Value} {tag : Tag} {s : List Char} (h : scalarForm v = some (tag, s)) (other : tag ≠ .str) :
    tagOfPlain s = tag ∧ allowsPlain s = true := by
  unfold scalarForm at h
  split at h
  · cases h
    decide
  · next b =>
    cases h
    cases b <;> decide
  · next n =>
    split_ifs at h
    cases h
    exact numeral_plain n
  · next x =>
    cases h
    cases x with
    | nan => decide
    | infinite negative => cases negative <;> decide
    | finite negative code => exact floatText_plain negative code
  · cases h
    exact absurd rfl other
  · cases h

theorem isTyped_form {v : Value} {tag : Tag} {s : List Char} (h : scalarForm v = some (tag, s)) : IsTyped tag s := by
  by_cases text : tag = .str
  · exact .inl text
  · obtain ⟨kind, allowed⟩ := form_plain h text
    refine .inr ⟨kind, allowed, ?_⟩
    rintro rfl
    obtain rfl : Tag.null = tag := kind
    cases v <;> simp [scalarForm] at h

/-- The text of a floating-point number is read as the number. -/
theorem floatOf_floatText (number : Nat) (x : Double) :
    ∃ n, floatOf number (floatText x) = .ok (.float (some n) x) := by
  cases x with
  | nan => exact ⟨_, rfl⟩
  | infinite negative => cases negative <;> exact ⟨_, rfl⟩
  | finite negative code =>
    obtain ⟨x, text, proper, point, rounded⟩ := exists_floatText negative code
    have all := numberChars_text proper
    have read := read?_text proper point all
    rw [Double.ofDecimal, rounded, Double.ofCode, dif_pos code.isLt] at read
    obtain ⟨d, s, e, digit⟩ := IsWhole.exists_cons (Json.isWhole_numeral proper)
    obtain ⟨s', text'⟩ : ∃ s', x.text = d :: s' := ⟨_, by simp [Numeral.text, e]; rfl⟩
    have colon : ':' ∉ x.text := not_mem_number all (by decide)
    rw [text'] at all read text colon
    have other : d ≠ '.' := by
      rintro rfl
      exact absurd digit (by decide)
    have dotted : d :: s' ≠ ".nan".toList ∧ d :: s' ≠ ".inf".toList := by
      constructor <;> exact fun e => other (List.cons.inj e).1
    refine ⟨number, ?_⟩
    rw [text, floatOf, lower_number (numberChars_signed all), splitSign_signed digit (List.forall_mem_cons.1 all).2]
    simp only [Except.ok_bind, if_neg dotted.1, if_neg dotted.2]
    cases negative <;> simp [colon, readNumber, read, Double.neg]

/-- What is read from the text of a scalar is the scalar. -/
theorem scalarOf_form {v : Value} {tag : Tag} {s : List Char} (h : scalarForm v = some (tag, s)) (number : Nat) :
    ∃ v', scalarOf number tag s = .ok v' ∧ v.Renewed v' := by
  unfold scalarForm at h
  split at h
  · cases h
    exact ⟨_, rfl, .null⟩
  · next b =>
    cases h
    cases b <;> exact ⟨_, rfl, .bool _⟩
  · next n =>
    split_ifs at h with fits
    cases h
    exact ⟨_, by simp [scalarOf, intOf_numeral fits, Except.map], .int n⟩
  · next x =>
    cases h
    obtain ⟨n, read⟩ := floatOf_floatText number x
    exact ⟨_, read, .float _ _ x⟩
  · next s =>
    cases h
    exact ⟨_, by simp [scalarOf], .str s⟩
  · cases h

end ZincModel.Yaml
