import ZincModel.Proofs.Text.Utf8

/-!
# Characters in bytes

A row of bytes is decoded piece by piece (`decodeLossy_induction`). A byte below 0x80 is a piece by itself, and a
character that is unfinished in front of it ends there; so what stands on both sides of it is decoded on its own
(`decodeLossy_append_ascii`). ASCII characters come from such bytes only (`mem_of_mem_decodeLossy`), and each character
that is decoded first comes from its own bytes, unless it is there for malformed ones (`head?_decodeLossy_iff`).
-/

namespace ZincModel.Text.Utf8

/-! ## Bytes and characters -/

/-- What a first byte says, in numbers: the second byte has narrower bounds where fewer bytes would do, where
surrogates would start, and where the code points end. -/
def Lead.Fits (a : Nat) : Lead → Prop
  | .ascii => a < 0x80
  | .invalid => 0x80 ≤ a
  | .leads following least greatest =>
    0x80 ≤ least.toNat ∧ greatest.toNat ≤ 0xBF ∧
      (following = 1 ∧ 0xC2 ≤ a ∧ a < 0xE0 ∨
        following = 2 ∧ 0xE0 ≤ a ∧ a < 0xF0 ∧ (a = 0xE0 → 0xA0 ≤ least.toNat) ∧
          (a = 0xED → greatest.toNat ≤ 0x9F) ∨
        following = 3 ∧ 0xF0 ≤ a ∧ a < 0xF5 ∧ (a = 0xF0 → 0x90 ≤ least.toNat) ∧
          (a = 0xF4 → greatest.toNat ≤ 0x8F))

theorem Lead.fits_ofByte (a : UInt8) : (Lead.ofByte a).Fits a.toNat := by
  fun_cases Lead.ofByte a
  all_goals
    simp only [UInt8.lt_iff_toNat_lt, ← UInt8.toNat_inj, UInt8.reduceToNat] at *
    simp only [Fits, UInt8.reduceToNat]
    grind

/-- The byte is within the bounds. -/
def isWithin (least greatest b : UInt8) : Bool := least ≤ b && b ≤ greatest

theorem isWithin_iff {least greatest b : UInt8} :
    isWithin least greatest b = true ↔ least.toNat ≤ b.toNat ∧ b.toNat ≤ greatest.toNat := by
  simp [isWithin, UInt8.le_iff_toNat_le]

theorem isContinuation_iff {b : UInt8} : isContinuation b = true ↔ 0x80 ≤ b.toNat ∧ b.toNat ≤ 0xBF := isWithin_iff

theorem toNat_ofNat {n : Nat} (valid : n < 0xD800 ∨ 0xDFFF < n ∧ n < 0x110000) : (Char.ofNat n).toNat = n := by
  rw [Char.ofNat, dif_pos valid]
  rfl

theorem eq_ofNat {b : UInt8} {n : Nat} (h : b.toNat = n) : b = UInt8.ofNat n := by
  rw [← h, UInt8.ofNat_toNat]

/-- The bytes of a character, told from its number. -/
theorem encode_ofNat {n : Nat} (valid : n < 0xD800 ∨ 0xDFFF < n ∧ n < 0x110000) :
    encode [Char.ofNat n] =
      if n ≤ 0x7F then [UInt8.ofNat n]
      else if n ≤ 0x7FF then [UInt8.ofNat (n / 64 % 32 + 0xC0), UInt8.ofNat (n % 64 + 0x80)]
      else if n ≤ 0xFFFF then
        [UInt8.ofNat (n / 4096 % 16 + 0xE0), UInt8.ofNat (n / 64 % 64 + 0x80), UInt8.ofNat (n % 64 + 0x80)]
      else
        [UInt8.ofNat (n / 262144 % 8 + 0xF0), UInt8.ofNat (n / 4096 % 64 + 0x80), UInt8.ofNat (n / 64 % 64 + 0x80),
          UInt8.ofNat (n % 64 + 0x80)] := by
  have number : (Char.ofNat n).val.toNat = n := toNat_ofNat valid
  simp only [encode, List.flatMap_singleton, String.utf8EncodeChar, number]

section Encoding

variable {a b c d : UInt8}

theorem encode_one (first : a.toNat < 0x80) : encode [Char.ofNat a.toNat] = [a] := by
  rw [encode_ofNat (by omega), if_pos (by omega), UInt8.ofNat_toNat]

theorem encode_two (first : 0xC2 ≤ a.toNat ∧ a.toNat < 0xE0) (second : isContinuation b = true) :
    encode [Char.ofNat (a.toNat % 32 * 64 + payload b)] = [a, b] := by
  rw [isContinuation_iff] at second
  unfold payload
  rw [encode_ofNat (by omega), if_neg (by omega), if_pos (by omega), ← eq_ofNat (b := a) (by omega),
    ← eq_ofNat (b := b) (by omega)]

theorem encode_three (first : 0xE0 ≤ a.toNat ∧ a.toNat < 0xF0) (second : isContinuation b = true)
    (long : a.toNat = 0xE0 → 0xA0 ≤ b.toNat) (valid : a.toNat = 0xED → b.toNat ≤ 0x9F)
    (third : isContinuation c = true) :
    encode [Char.ofNat ((a.toNat % 16 * 64 + payload b) * 64 + payload c)] = [a, b, c] := by
  rw [isContinuation_iff] at second third
  unfold payload
  rw [encode_ofNat (by omega), if_neg (by omega), if_neg (by omega), if_pos (by omega), ← eq_ofNat (b := a) (by omega),
    ← eq_ofNat (b := b) (by omega), ← eq_ofNat (b := c) (by omega)]

theorem encode_four (first : 0xF0 ≤ a.toNat ∧ a.toNat < 0xF5) (second : isContinuation b = true)
    (long : a.toNat = 0xF0 → 0x90 ≤ b.toNat) (valid : a.toNat = 0xF4 → b.toNat ≤ 0x8F)
    (third : isContinuation c = true) (fourth : isContinuation d = true) :
    encode [Char.ofNat (((a.toNat % 8 * 64 + payload b) * 64 + payload c) * 64 + payload d)] = [a, b, c, d] := by
  rw [isContinuation_iff] at second third fourth
  unfold payload
  rw [encode_ofNat (by omega), if_neg (by omega), if_neg (by omega), if_neg (by omega),
    ← eq_ofNat (b := a) (by omega), ← eq_ofNat (b := b) (by omega), ← eq_ofNat (b := c) (by omega),
    ← eq_ofNat (b := d) (by omega)]

end Encoding

/-! ## Pieces -/

/-- The bytes go on with none of these. -/
def Stops (p : UInt8 → Bool) (bytes : List UInt8) : Prop := ∀ b ∈ bytes.head?, p b = false

/-- Either bytes go on with one of these, or they do not. -/
theorem stops_or (p : UInt8 → Bool) (bytes : List UInt8) :
    Stops p bytes ∨ ∃ b rest, bytes = b :: rest ∧ p b = true := by
  cases bytes with
  | nil => exact .inl (by simp [Stops])
  | cons b rest =>
    cases h : p b with
    | false => exact .inl (by simp [Stops, h])
    | true => exact .inr ⟨b, rest, rfl, h⟩

section Pieces

variable {a b c d : UInt8} {following : Nat} {least greatest : UInt8} {rest : List UInt8}

theorem decodeLossy_ascii (ascii : a.toNat < 0x80) (rest : List UInt8) :
    decodeLossy (a :: rest) = Char.ofNat a.toNat :: decodeLossy rest := by
  have lead : Lead.ofByte a = .ascii := if_pos (by rwa [UInt8.lt_iff_toNat_lt])
  rw [decodeLossy, pieces, lead]
  rfl

theorem decodeLossy_invalid (lead : Lead.ofByte a = .invalid) (rest : List UInt8) :
    decodeLossy (a :: rest) = '\uFFFD' :: decodeLossy rest := by
  rw [decodeLossy, pieces, lead]
  rfl

variable (lead : Lead.ofByte a = .leads following least greatest)

include lead

/-- A first byte behind which no second one stands. -/
theorem decodeLossy_one (stops : Stops (isWithin least greatest) rest) :
    decodeLossy (a :: rest) = '\uFFFD' :: decodeLossy rest := by
  rw [decodeLossy, pieces, lead]
  cases rest with
  | nil => rfl
  | cons b rest =>
    have outside := stops b rfl
    rw [isWithin] at outside
    simp only [outside, Bool.not_false, if_true]
    rfl

variable (second : isWithin least greatest b = true)

include second

theorem decodeLossy_char_two (size : following = 1) (rest : List UInt8) :
    decodeLossy (a :: b :: rest) = Char.ofNat (a.toNat % 32 * 64 + payload b) :: decodeLossy rest := by
  rw [isWithin] at second
  rw [decodeLossy, pieces, lead]
  simp only [second, size, Bool.not_true, Bool.false_eq_true, if_false, if_true]
  rfl

theorem decodeLossy_two (long : following ≠ 1) (stops : Stops isContinuation rest) :
    decodeLossy (a :: b :: rest) = '\uFFFD' :: decodeLossy rest := by
  rw [isWithin] at second
  rw [decodeLossy, pieces, lead]
  simp only [second, long, Bool.not_true, Bool.false_eq_true, if_false]
  cases rest with
  | nil => rfl
  | cons c rest =>
    simp only [stops c rfl, Bool.not_false, if_true]
    rfl

variable (third : isContinuation c = true)

include third

theorem decodeLossy_char_three (size : following = 2) (rest : List UInt8) :
    decodeLossy (a :: b :: c :: rest) =
      Char.ofNat ((a.toNat % 16 * 64 + payload b) * 64 + payload c) :: decodeLossy rest := by
  rw [isWithin] at second
  rw [decodeLossy, pieces, lead]
  simp only [second, third, size, Bool.not_true, Bool.false_eq_true, if_false, if_true]
  rw [if_neg (by decide)]
  rfl

theorem decodeLossy_three (long : following ≠ 1) (longer : following ≠ 2) (stops : Stops isContinuation rest) :
    decodeLossy (a :: b :: c :: rest) = '\uFFFD' :: decodeLossy rest := by
  rw [isWithin] at second
  rw [decodeLossy, pieces, lead]
  simp only [second, third, long, longer, Bool.not_true, Bool.false_eq_true, if_false]
  cases rest with
  | nil => rfl
  | cons d rest =>
    simp only [stops d rfl, Bool.not_false, if_true]
    rfl

theorem decodeLossy_char_four (long : following ≠ 1) (longer : following ≠ 2) (fourth : isContinuation d = true)
    (rest : List UInt8) :
    decodeLossy (a :: b :: c :: d :: rest) =
      Char.ofNat (((a.toNat % 8 * 64 + payload b) * 64 + payload c) * 64 + payload d) :: decodeLossy rest := by
  rw [isWithin] at second
  rw [decodeLossy, pieces, lead]
  simp only [second, third, fourth, long, longer, Bool.not_true, Bool.false_eq_true, if_false]
  rfl

end Pieces

/-! ## One piece after the other -/

/-- No character goes on with the bytes: there are none, or the first one is a character by itself. -/
def IsApart (bytes : List UInt8) : Prop := ∀ b ∈ bytes.head?, b.toNat < 0x80

theorem Stops.append {p : UInt8 → Bool} {bytes tail : List UInt8} (h : Stops p bytes) (apart : IsApart tail)
    (high : ∀ b, p b = true → 0x80 ≤ b.toNat) : Stops p (bytes ++ tail) := by
  cases bytes with
  | nil =>
    intro b hb
    rw [Bool.eq_false_iff]
    intro taken
    have low := apart b hb
    have := high b taken
    omega
  | cons b bytes => exact h

/-- The bytes `taken` are decoded to one character, which is no ASCII character, whatever stands behind what follows
them. They are its own bytes, or it is there for malformed ones. -/
structure Gives (taken rest : List UInt8) (c : Char) : Prop where
  some : taken ≠ []
  bytes : ∀ b ∈ taken, 0x80 ≤ b.toNat
  char : 0x80 ≤ c.toNat
  own : c = '\uFFFD' ∨ encode [c] = taken
  decoded : ∀ tail, IsApart tail → decodeLossy (taken ++ (rest ++ tail)) = c :: decodeLossy (rest ++ tail)

theorem Gives.decodeLossy_append {taken rest : List UInt8} {c : Char} (h : Gives taken rest c) :
    decodeLossy (taken ++ rest) = c :: decodeLossy rest := by
  simpa using h.decoded [] (by simp [IsApart])

/-- A first byte with the bytes that go on with it, as many as there are. -/
theorem gives_of_lead {a : UInt8} {following : Nat} {least greatest : UInt8}
    (lead : Lead.ofByte a = .leads following least greatest) (bytes : List UInt8) :
    ∃ taken rest c, a :: bytes = taken ++ rest ∧ Gives taken rest c := by
  obtain ⟨low, high, size⟩ : Lead.Fits a.toNat (.leads following least greatest) := lead ▸ Lead.fits_ofByte a
  have first : 0x80 ≤ a.toNat := by omega
  have within {b : UInt8} (h : isWithin least greatest b = true) : 0x80 ≤ b.toNat := by
    have := isWithin_iff.1 h
    omega
  have continues {b : UInt8} (h : isContinuation b = true) : 0x80 ≤ b.toNat := (isContinuation_iff.1 h).1
  have beyond {n : Nat} (low : 0x80 ≤ n) (valid : n < 0xD800 ∨ 0xDFFF < n ∧ n < 0x110000) :
      0x80 ≤ (Char.ofNat n).toNat := by
    rw [toNat_ofNat valid]
    exact low
  rcases stops_or (isWithin least greatest) bytes with stops | ⟨b, bytes, rfl, second⟩
  · refine ⟨[a], bytes, '\uFFFD', rfl, by simp, by simp [first], by decide, .inl rfl, fun tail apart => ?_⟩
    exact decodeLossy_one lead (stops.append apart fun _ => within)
  have bounds := isWithin_iff.1 second
  have continuing : isContinuation b = true := isContinuation_iff.2 (by omega)
  by_cases two : following = 1
  · refine ⟨[a, b], bytes, _, rfl, by simp, by simp [first, within second], ?_,
      .inr (encode_two (by omega) continuing), fun tail _ => decodeLossy_char_two lead second two _⟩
    unfold payload
    apply beyond <;> omega
  rcases stops_or isContinuation bytes with stops | ⟨c, bytes, rfl, third⟩
  · refine ⟨[a, b], bytes, '\uFFFD', rfl, by simp, by simp [first, within second], by decide, .inl rfl,
      fun tail apart => ?_⟩
    exact decodeLossy_two lead second two (stops.append apart fun _ => continues)
  by_cases three : following = 2
  · refine ⟨[a, b, c], bytes, _, rfl, by simp, by simp [first, within second, continues third], ?_,
      .inr (encode_three (by omega) continuing (by omega) (by omega) third),
      fun tail _ => decodeLossy_char_three lead second third three _⟩
    unfold payload
    apply beyond <;> omega
  rcases stops_or isContinuation bytes with stops | ⟨d, bytes, rfl, fourth⟩
  · refine ⟨[a, b, c], bytes, '\uFFFD', rfl, by simp, by simp [first, within second, continues third], by decide,
      .inl rfl, fun tail apart => ?_⟩
    exact decodeLossy_three lead second third two three (stops.append apart fun _ => continues)
  · refine ⟨[a, b, c, d], bytes, _, rfl, by simp, by simp [first, within second, continues third, continues fourth],
      ?_, .inr (encode_four (by omega) continuing (by omega) (by omega) third fourth),
      fun tail _ => decodeLossy_char_four lead second third two three fourth _⟩
    unfold payload
    apply beyond <;> omega

/-- A row of bytes starts with an ASCII character, or with bytes that give another one. -/
@[elab_as_elim]
theorem decodeLossy_induction {P : List UInt8 → Prop} (nil : P [])
    (ascii : ∀ a bytes, a.toNat < 0x80 → P bytes → P (a :: bytes))
    (beyond : ∀ taken rest c, Gives taken rest c → P rest → P (taken ++ rest)) (bytes : List UInt8) : P bytes := by
  induction size : bytes.length using Nat.strongRecOn generalizing bytes with
  | ind n ih =>
    subst size
    cases bytes with
    | nil => exact nil
    | cons a bytes =>
      have shorter {taken rest : List UInt8} {c : Char} (whole : a :: bytes = taken ++ rest)
          (gives : Gives taken rest c) : P (a :: bytes) := by
        rw [whole]
        refine beyond taken rest c gives (ih _ ?_ rest rfl)
        have := List.length_pos_iff.2 gives.some
        rw [whole, List.length_append]
        omega
      have fits := Lead.fits_ofByte a
      cases lead : Lead.ofByte a with
      | ascii =>
        rw [lead] at fits
        exact ascii a bytes fits (ih _ (Nat.lt_succ_self _) bytes rfl)
      | invalid =>
        have high : 0x80 ≤ a.toNat := by rwa [lead] at fits
        have gives : Gives [a] bytes '\uFFFD' :=
          ⟨by simp, by simp [high], by decide, .inl rfl, fun tail _ => decodeLossy_invalid lead _⟩
        exact shorter rfl gives
      | leads following least greatest =>
        obtain ⟨taken, rest, c, whole, gives⟩ := gives_of_lead lead bytes
        exact shorter whole gives

/-- What stands on both sides of an ASCII character is decoded on its own. -/
theorem decodeLossy_append_ascii {b : UInt8} (ascii : b.toNat < 0x80) (bytes rest : List UInt8) :
    decodeLossy (bytes ++ b :: rest) = decodeLossy bytes ++ Char.ofNat b.toNat :: decodeLossy rest := by
  induction bytes using decodeLossy_induction with
  | nil => exact decodeLossy_ascii ascii rest
  | ascii a bytes ha ih => rw [List.cons_append, decodeLossy_ascii ha, decodeLossy_ascii ha, ih, List.cons_append]
  | beyond taken more c gives ih =>
    have there := gives.decoded (b :: rest) (by simpa [IsApart] using ascii)
    rw [List.append_assoc, there, gives.decodeLossy_append, ih, List.cons_append]

/-- An ASCII character is decoded from its byte. -/
theorem mem_of_mem_decodeLossy {bytes : List UInt8} {c : Char} (ascii : c.toNat < 0x80) (h : c ∈ decodeLossy bytes) :
    UInt8.ofNat c.toNat ∈ bytes := by
  induction bytes using decodeLossy_induction with
  | nil => cases h
  | ascii a bytes ha ih =>
    rw [decodeLossy_ascii ha] at h
    rcases List.mem_cons.1 h with rfl | h
    · rw [toNat_ofNat (.inl (by omega)), UInt8.ofNat_toNat]
      exact List.mem_cons_self
    · exact List.mem_cons_of_mem _ (ih h)
  | beyond taken rest d gives ih =>
    rw [gives.decodeLossy_append] at h
    rcases List.mem_cons.1 h with rfl | h
    · have := gives.char
      omega
    · exact List.mem_append_right _ (ih h)

theorem decodeLossy_eq_nil_iff {bytes : List UInt8} : decodeLossy bytes = [] ↔ bytes = [] := by
  induction bytes using decodeLossy_induction with
  | nil => simp [decodeLossy, pieces]
  | ascii a bytes ha _ => simp [decodeLossy_ascii ha]
  | beyond taken rest c gives _ => simp [gives.decodeLossy_append, gives.some]

theorem decodeLossy_char (c : Char) (rest : List UInt8) : decodeLossy (encode [c] ++ rest) = c :: decodeLossy rest := by
  rw [decodeLossy, encode, List.flatMap_singleton, pieces_char]
  rfl

/-- A character is decoded first if its bytes stand in front, and only then, unless malformed bytes give it too. -/
theorem head?_decodeLossy_iff {bytes : List UInt8} {c : Char} (whole : c ≠ '\uFFFD') :
    (decodeLossy bytes).head? = some c ↔ encode [c] <+: bytes := by
  constructor
  · intro first
    induction bytes using decodeLossy_induction with
    | nil => cases first
    | ascii a bytes ha _ =>
      rw [decodeLossy_ascii ha] at first
      cases first
      rw [encode_one ha]
      exact ⟨bytes, rfl⟩
    | beyond taken rest d gives _ =>
      rw [gives.decodeLossy_append] at first
      cases first
      rw [gives.own.resolve_left whole]
      exact ⟨rest, rfl⟩
  · rintro ⟨rest, rfl⟩
    rw [decodeLossy_char]
    rfl

end ZincModel.Text.Utf8
