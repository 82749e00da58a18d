import Mathlib.Tactic.IntervalCases
import ZincModel.Text.Utf8

/-!
# Texts survive UTF-8

The bytes of a text are taken apart into its characters again (`pieces_encode`), whatever bytes follow those of a
character (`pieces_char`); so a text that is written as UTF-8 is read as it was, and nothing in it is malformed
(`decodeLossy_encode`).
-/

namespace ZincModel.Text.Utf8

/-! ## First bytes -/

theorem ofByte_ascii {n : Nat} (h : n < 0x80) : Lead.ofByte (UInt8.ofNat n) = .ascii := by
  interval_cases n <;> rfl

theorem ofByte_two {n : Nat} (low : 0xC2 ≤ n) (high : n < 0xE0) :
    Lead.ofByte (UInt8.ofNat n) = .leads 1 0x80 0xBF := by
  interval_cases n <;> rfl

/-- Of three bytes the second one has less room behind the least first byte, where two bytes would do, and behind
the one that surrogates would start with. -/
theorem ofByte_three {n : Nat} (low : 0xE0 ≤ n) (high : n < 0xF0) :
    Lead.ofByte (UInt8.ofNat n) =
      .leads 2 (if n = 0xE0 then 0xA0 else 0x80) (if n = 0xED then 0x9F else 0xBF) := by
  interval_cases n <;> rfl

/-- Of four bytes the second one has less room behind the least first byte, where three bytes would do, and behind
the greatest one, where the code points end. -/
theorem ofByte_four {n : Nat} (low : 0xF0 ≤ n) (high : n < 0xF5) :
    Lead.ofByte (UInt8.ofNat n) =
      .leads 3 (if n = 0xF0 then 0x90 else 0x80) (if n = 0xF4 then 0x8F else 0xBF) := by
  interval_cases n <;> rfl

/-! ## Bytes that follow -/

/-- The byte that continues a character with these six bits. -/
theorem payload_following {n : Nat} : payload (UInt8.ofNat (n % 64 + 0x80)) = n % 64 := by
  simp only [payload, UInt8.toNat_ofNat']
  omega

theorem isContinuation_following {n : Nat} : isContinuation (UInt8.ofNat (n % 64 + 0x80)) = true := by
  simp only [isContinuation, Bool.and_eq_true, decide_eq_true_eq, UInt8.le_iff_toNat_le, UInt8.toNat_ofNat',
    UInt8.reduceToNat]
  omega

/-- The byte that continues a character is within bounds if its six bits are. -/
theorem following_within {n : Nat} {least greatest : UInt8} (low : least.toNat ≤ n % 64 + 0x80)
    (high : n % 64 + 0x80 ≤ greatest.toNat) :
    least ≤ UInt8.ofNat (n % 64 + 0x80) ∧ UInt8.ofNat (n % 64 + 0x80) ≤ greatest := by
  simp only [UInt8.le_iff_toNat_le, UInt8.toNat_ofNat']
  omega

/-! ## Characters -/

theorem pieces_ascii {n : Nat} (h : n < 0x80) (rest : List UInt8) :
    pieces (UInt8.ofNat n :: rest) = .char (Char.ofNat n) :: pieces rest := by
  have whole : (UInt8.ofNat n).toNat = n := by
    rw [UInt8.toNat_ofNat']
    omega
  rw [pieces, ofByte_ascii h, whole]

theorem pieces_two {n : Nat} (low : 0x80 ≤ n) (high : n < 0x800) (rest : List UInt8) :
    pieces (UInt8.ofNat (n / 64 % 32 + 0xC0) :: UInt8.ofNat (n % 64 + 0x80) :: rest) =
      .char (Char.ofNat n) :: pieces rest := by
  have first : (UInt8.ofNat (n / 64 % 32 + 0xC0)).toNat % 32 * 64 + n % 64 = n := by
    rw [UInt8.toNat_ofNat']
    omega
  have second : (0x80 : UInt8) ≤ UInt8.ofNat (n % 64 + 0x80) ∧ UInt8.ofNat (n % 64 + 0x80) ≤ 0xBF :=
    following_within (show 0x80 ≤ _ by omega) (show _ ≤ 0xBF by omega)
  rw [pieces, ofByte_two (by omega) (by omega)]
  simp only [second, decide_true, Bool.and_self, Bool.not_true, Bool.false_eq_true, if_false, if_true,
    payload_following, first]

theorem pieces_three {n : Nat} (low : 0x800 ≤ n) (high : n < 0x10000) (apart : n < 0xD800 ∨ 0xDFFF < n)
    (rest : List UInt8) :
    pieces (UInt8.ofNat (n / 4096 % 16 + 0xE0) :: UInt8.ofNat (n / 64 % 64 + 0x80) :: UInt8.ofNat (n % 64 + 0x80) ::
      rest) = .char (Char.ofNat n) :: pieces rest := by
  have first : ((UInt8.ofNat (n / 4096 % 16 + 0xE0)).toNat % 16 * 64 + n / 64 % 64) * 64 + n % 64 = n := by
    rw [UInt8.toNat_ofNat']
    omega
  have second : (if n / 4096 % 16 + 0xE0 = 0xE0 then 0xA0 else 0x80 : UInt8) ≤ UInt8.ofNat (n / 64 % 64 + 0x80) ∧
      UInt8.ofNat (n / 64 % 64 + 0x80) ≤ if n / 4096 % 16 + 0xE0 = 0xED then 0x9F else 0xBF := by
    apply following_within
    · split
      · show 0xA0 ≤ _
        omega
      · show 0x80 ≤ _
        omega
    · split
      · show _ ≤ 0x9F
        omega
      · show _ ≤ 0xBF
        omega
  rw [pieces, ofByte_three (by omega) (by omega)]
  simp only [second, decide_true, Bool.and_self, Bool.not_true, Bool.false_eq_true, if_false]
  rw [if_neg (by decide : ¬(2 = 1))]
  simp only [isContinuation_following, payload_following, first, Bool.not_true, Bool.false_eq_true, if_false, if_true]

theorem pieces_four {n : Nat} (low : 0x10000 ≤ n) (high : n < 0x110000) (rest : List UInt8) :
    pieces (UInt8.ofNat (n / 262144 % 8 + 0xF0) :: UInt8.ofNat (n / 4096 % 64 + 0x80) ::
      UInt8.ofNat (n / 64 % 64 + 0x80) :: UInt8.ofNat (n % 64 + 0x80) :: rest) =
        .char (Char.ofNat n) :: pieces rest := by
  have first : (((UInt8.ofNat (n / 262144 % 8 + 0xF0)).toNat % 8 * 64 + n / 4096 % 64) * 64 + n / 64 % 64) * 64 +
      n % 64 = n := by
    rw [UInt8.toNat_ofNat']
    omega
  have second : (if n / 262144 % 8 + 0xF0 = 0xF0 then 0x90 else 0x80 : UInt8) ≤ UInt8.ofNat (n / 4096 % 64 + 0x80) ∧
      UInt8.ofNat (n / 4096 % 64 + 0x80) ≤ if n / 262144 % 8 + 0xF0 = 0xF4 then 0x8F else 0xBF := by
    apply following_within
    · split
      · show 0x90 ≤ _
        omega
      · show 0x80 ≤ _
        omega
    · split
      · show _ ≤ 0x8F
        omega
      · show _ ≤ 0xBF
        omega
  rw [pieces, ofByte_four (by omega) (by omega)]
  simp only [second, decide_true, Bool.and_self, Bool.not_true, Bool.false_eq_true, if_false]
  rw [if_neg (by decide : ¬(3 = 1)), if_neg (by decide : ¬(3 = 2))]
  simp only [isContinuation_following, payload_following, first, Bool.not_true, Bool.false_eq_true, if_false]

/-- The bytes of a character are taken for it, whatever follows them. -/
theorem pieces_char (c : Char) (rest : List UInt8) :
    pieces (String.utf8EncodeChar c ++ rest) = .char c :: pieces rest := by
  have valid : c.toNat < 0xD800 ∨ 0xDFFF < c.toNat ∧ c.toNat < 0x110000 := c.valid
  have back : Char.ofNat c.toNat = c := Char.ofNat_toNat c
  unfold String.utf8EncodeChar
  dsimp only
  rw [show c.val.toNat = c.toNat from rfl]
  split
  · rw [List.cons_append, List.nil_append, pieces_ascii (by omega), back]
  · split
    · simp only [List.cons_append, List.nil_append]
      rw [pieces_two (by omega) (by omega), back]
    · split
      · simp only [List.cons_append, List.nil_append]
        rw [pieces_three (by omega) (by omega) (by omega), back]
      · simp only [List.cons_append, List.nil_append]
        rw [pieces_four (by omega) (by omega), back]

/-! ## Texts -/

theorem pieces_encode (s : List Char) : pieces (encode s) = s.map .char := by
  induction s with
  | nil => rfl
  | cons c s ih => rw [encode, List.flatMap_cons, pieces_char, ← encode, ih, List.map_cons]

/-- A text is read from its bytes as it was. -/
theorem decodeLossy_encode (s : List Char) : decodeLossy (encode s) = s := by
  rw [decodeLossy, pieces_encode, List.map_map]
  exact List.map_id' s

end ZincModel.Text.Utf8
