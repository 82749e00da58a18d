import Mathlib.Data.List.TakeWhile
import ZincModel.Proofs.Json.Number

/-!
# What reading consumes

The steps of a successful reading, taken apart (`readScalar_eq_ok`, `readUnits_induction`, `readItems_eq_ok`,
`readEntries_eq_ok`, `readValue_eq_ok`), and what they have gone past then: blanks, quoted texts and printable
characters, with never two minus signs in a row (`Passes`).
-/

namespace ZincModel.Json

open Text
open Double (Stops)

variable {s rest : List Char}

/-! ## Scalars -/

/-- The words for values that are no numbers with digits. -/
def literals : List (List Char × Value) :=
  [("null".toList, .null), ("true".toList, .bool true), ("false".toList, .bool false),
    ("NaN".toList, .float (some nanNumber) .nan), ("Infinity".toList, .ofDouble (.infinite false)),
    ("-Infinity".toList, .ofDouble (.infinite true))]

theorem readScalar_literal {word : List Char} {v : Value} (h : (word, v) ∈ literals) (rest : List Char) :
    readScalar (word ++ rest) = .ok (v, rest) := by
  simp only [literals, List.mem_cons, Prod.mk.injEq, List.not_mem_nil, or_false] at h
  rcases h with ⟨rfl, rfl⟩ | ⟨rfl, rfl⟩ | ⟨rfl, rfl⟩ | ⟨rfl, rfl⟩ | ⟨rfl, rfl⟩ | ⟨rfl, rfl⟩ <;> rfl

/-- The digits are the whole part of a number in front of the text: a zero, or all digits there are. -/
structure IsWholeOf (ds rest : List Char) : Prop where
  whole : IsWhole ds
  stops : ds = ['0'] ∨ Stops rest

theorem IsWholeOf.readScalar {ds : List Char} (h : IsWholeOf ds rest) (negative : Bool) :
    readScalar (signed negative (ds ++ rest)) = numberFrom negative ds rest := by
  rcases h.stops with rfl | stops
  · cases negative <;> rfl
  · exact readScalar_whole h.whole stops negative

theorem stops_dropWhile (s : List Char) : Stops (s.dropWhile isDigit) := by
  intro c hc
  have h := List.head?_dropWhile_not isDigit s
  rw [hc] at h
  simpa using h

theorem readUnsigned?_eq_some {negative : Bool} {r : Reading Value} (h : readUnsigned? negative s = some r) :
    ∃ ds rest, s = ds ++ rest ∧ IsWholeOf ds rest ∧ r = numberFrom negative ds rest := by
  unfold Json.readUnsigned? at h
  split at h
  · next rest =>
    cases h
    exact ⟨['0'], rest, rfl, ⟨⟨List.forall_mem_singleton.2 rfl, Or.inl rfl⟩, Or.inl rfl⟩, rfl⟩
  · next nonzero =>
    have parts : s = s.takeWhile isDigit ++ s.dropWhile isDigit := List.takeWhile_append_dropWhile.symm
    have digits : ∀ c ∈ s.takeWhile isDigit, isDigit c = true := fun c hc => List.mem_takeWhile_imp hc
    unfold Double.takeDigits at h
    split at h
    · cases h
    · next ds after e =>
      obtain ⟨rfl, rfl⟩ := Prod.mk.inj e
      obtain ⟨c, cs, e⟩ := List.exists_cons_of_ne_nil (l := s.takeWhile isDigit) (by assumption)
      refine ⟨_, _, parts, ⟨⟨digits, Or.inr ⟨c, cs, e, ?_⟩⟩, Or.inr (stops_dropWhile s)⟩, (Option.some.inj h).symm⟩
      rintro rfl
      rw [e] at parts
      exact nonzero _ parts

/-- A scalar is one of the words, or starts with the whole part of a number. -/
theorem readScalar_eq_ok {v : Value} (h : readScalar s = .ok (v, rest)) :
    (∃ word, (word, v) ∈ literals ∧ s = word ++ rest) ∨
      ∃ negative ds after, s = signed negative (ds ++ after) ∧ IsWholeOf ds after ∧
        numberFrom negative ds after = .ok (v, rest) := by
  have number {negative : Bool} {s' : List Char} {stop : Stop}
      (h : (Json.readUnsigned? negative s').getD (.error stop) = .ok (v, rest)) :
      ∃ ds after, s' = ds ++ after ∧ IsWholeOf ds after ∧ numberFrom negative ds after = .ok (v, rest) := by
    cases e : Json.readUnsigned? negative s' with
    | none => rw [e] at h; cases h
    | some r =>
      obtain ⟨ds, after, parts, whole, rfl⟩ := readUnsigned?_eq_some e
      rw [e] at h
      exact ⟨ds, after, parts, whole, h⟩
  have word {w : List Char} {u : Value} {s' : List Char} (known : (w, u) ∈ literals)
      (h : (.ok (u, s') : Reading Value) = .ok (v, rest)) : ∃ word, (word, v) ∈ literals ∧ w ++ s' = word ++ rest := by
    obtain ⟨rfl, rfl⟩ := Prod.mk.inj (Except.ok.inj h)
    exact ⟨w, known, rfl⟩
  unfold Json.readScalar at h
  dsimp only at h
  split at h
  · exact Or.inl (word (w := "null".toList) (by simp [literals]) h)
  · exact Or.inl (word (w := "true".toList) (by simp [literals]) h)
  · exact Or.inl (word (w := "false".toList) (by simp [literals]) h)
  · exact Or.inl (word (w := "NaN".toList) (by simp [literals]) h)
  · exact Or.inl (word (w := "Infinity".toList) (by simp [literals]) h)
  · exact Or.inl (word (w := "-Infinity".toList) (by simp [literals]) h)
  · obtain ⟨ds, after, rfl, whole, read⟩ := number h
    exact Or.inr ⟨true, ds, after, rfl, whole, read⟩
  · obtain ⟨ds, after, rfl, whole, read⟩ := number h
    exact Or.inr ⟨false, ds, after, rfl, whole, read⟩

/-! ## Texts -/

/-- One character of a quoted text or one escape, and the number it stands for. -/
structure IsUnit (w : List Char) (n : Nat) : Prop where
  printed : ∀ c ∈ w, 0x20 ≤ c.toNat
  inner : w = [' '] ∨ ∀ c ∈ w, isBlank c = false
  read : ∀ rest, rest ≠ [] → readUnits (w ++ rest) = (readUnits rest).map fun r => (n :: r.1, r.2)

/-- No blank of JSON but the space is printed. -/
theorem not_blank {c : Char} (printed : 0x20 ≤ c.toNat) (ne : c ≠ ' ') : isBlank c = false := by
  by_contra h
  simp only [isBlank, Bool.not_eq_false, Bool.or_eq_true, beq_iff_eq] at h
  rcases h with ((rfl | rfl) | rfl) | rfl
  · exact ne rfl
  all_goals exact absurd printed (by decide)

theorem readUnits_ne_nil {r : List Nat × List Char} (h : readUnits s = .ok r) : s ≠ [] := by
  rintro rfl
  cases h

theorem isUnit_char {c : Char} (quote : c ≠ '"') (backslash : c ≠ '\\') (printed : 0x20 ≤ c.toNat) :
    IsUnit [c] c.toNat where
  printed := List.forall_mem_singleton.2 printed
  inner := by
    by_cases space : c = ' '
    · exact Or.inl (by rw [space])
    · exact Or.inr (List.forall_mem_singleton.2 (not_blank printed space))
  read rest _ := by
    rw [List.singleton_append, readUnits, if_neg (Nat.not_lt.2 printed)]
    · exact quote
    · exact backslash

/-- Escapes hold printed characters and no space. -/
theorem IsUnit.escape {w : List Char} {n : Nat} (printed : ∀ c ∈ w, 0x20 ≤ c.toNat ∧ c ≠ ' ')
    (read : ∀ rest, rest ≠ [] → readUnits (w ++ rest) = (readUnits rest).map fun r => (n :: r.1, r.2)) :
    IsUnit w n :=
  ⟨fun c hc => (printed c hc).1, Or.inr fun c hc => not_blank (printed c hc).1 (printed c hc).2, read⟩

theorem isUnit_letter {l c : Char} (h : unescape? l = some c) : IsUnit ['\\', l] c.toNat := by
  unfold unescape? at h
  split at h <;> cases h <;> exact IsUnit.escape (by simp) fun rest _ => rfl

theorem hexValue?_printed {c : Char} (h : hexValue? c ≠ none) : 0x20 ≤ c.toNat ∧ c ≠ ' ' := by
  have digit : '0'.toNat ≤ c.toNat := by
    unfold hexValue? at h
    simp only [Char.le_def, UInt32.le_iff_toNat_le] at h
    have zero : '0'.toNat = 48 := rfl
    split at h
    · next range => exact range.1
    · split at h
      · next range => exact le_trans (by decide : 48 ≤ 97) range.1
      · split at h
        · next range => exact le_trans (by decide : 48 ≤ 65) range.1
        · exact absurd rfl h
  refine ⟨le_trans (by decide) digit, ?_⟩
  rintro rfl
  exact absurd digit (by decide)

theorem hexNumber?_printed {w : List Char} {n : Nat} (h : hexNumber? w = some n) :
    ∀ c ∈ w, 0x20 ≤ c.toNat ∧ c ≠ ' ' := by
  have all (start : Nat) (h : w.foldlM (fun n c => (hexValue? c).map (16 * n + ·)) start ≠ none) :
      ∀ c ∈ w, hexValue? c ≠ none := by
    clear * - h
    induction w generalizing start with
    | nil => simp
    | cons c w ih =>
      rw [List.foldlM_cons] at h
      cases e : hexValue? c with
      | none => rw [e] at h; exact absurd rfl h
      | some d =>
        rw [e] at h
        exact List.forall_mem_cons.2 ⟨by simp [e], ih _ h⟩
  exact fun c hc => hexValue?_printed (all 0 (by rw [← hexNumber?, h]; simp) c hc)

theorem isUnit_number {a b c d : Char} {n : Nat} (h : hexNumber? [a, b, c, d] = some n) :
    IsUnit ['\\', 'u', a, b, c, d] n := by
  refine IsUnit.escape ?_ fun rest more => readUnits_number h more
  exact List.forall_mem_cons.2 ⟨by decide, List.forall_mem_cons.2 ⟨by decide, hexNumber?_printed h⟩⟩

/-- The units of a text are read one after the other, up to its closing quote. -/
theorem readUnits_induction {P : List Char → List Nat → Prop} {units : List Nat} (close : P ('"' :: rest) [])
    (unit : ∀ w n s units, IsUnit w n → readUnits s = .ok (units, rest) → P s units → P (w ++ s) (n :: units))
    (h : readUnits s = .ok (units, rest)) : P s units := by
  have step {w : List Char} {n : Nat} {s : List Char} {units : List Nat} (isUnit : IsUnit w n)
      (ih : ∀ {units : List Nat}, readUnits s = .ok (units, rest) → P s units)
      (h : ((readUnits s).map fun (r : List Nat × List Char) => (n :: r.1, r.2)) = .ok (units, rest)) :
      P (w ++ s) units := by
    obtain ⟨⟨units, rest⟩, read, e⟩ := Except.map_eq_ok.1 h
    cases e
    exact unit w n s units isUnit read (ih read)
  fun_induction readUnits s generalizing units with
  | case1 => cases h
  | case2 => cases h; exact close
  | case3 => cases h
  | case4 => cases h
  | case5 => cases h
  | case6 a b c d s _ n hn ih => exact step (isUnit_number hn) ih h
  | case7 => cases h
  | case8 l s _ _ c hc ih => exact step (isUnit_letter hc) ih h
  | case9 => cases h
  | case10 => cases h
  | case11 c s quote backslash printed ih => exact step (isUnit_char quote backslash (Nat.not_lt.1 printed)) ih h

theorem readText_eq_ok {t : List Char} (h : readText s = .ok (t, rest)) :
    ∃ units, readUnits s = .ok (units, rest) ∧ t = joinHalves units := by
  unfold readText at h
  cases e : readUnits s with
  | error stop => rw [e] at h; cases h
  | ok r =>
    rw [e] at h
    cases h
    exact ⟨r.1, rfl, rfl⟩

/-! ## Values -/

/-- One entry is read, and the brace behind it or further entries. -/
theorem readEntries_eq_ok {fuel : Nat} {entries : List (Value × Value)}
    (h : readEntries fuel s = .ok (entries, rest)) :
    ∃ f s₁ name s₂ s₃ v s₄, fuel = f + 1 ∧ s = '"' :: s₁ ∧ readText s₁ = .ok (name, s₂) ∧ skip s₂ = ':' :: s₃ ∧
      readValue f (skip s₃) = .ok (v, s₄) ∧
      (entries = [(.str (String.ofList name), v)] ∧ skip s₄ = '}' :: rest ∨
        ∃ s₅ more, skip s₄ = ',' :: s₅ ∧ readEntries f (skip s₅) = .ok (more, rest) ∧
          entries = (.str (String.ofList name), v) :: more) := by
  cases fuel with
  | zero => cases h
  | succ f =>
    unfold readEntries at h
    split at h
    · next s₁ =>
      obtain ⟨⟨name, s₂⟩, text, h⟩ := Except.bind_eq_ok.1 h
      dsimp only at h
      split at h
      · next s₃ colon =>
        obtain ⟨⟨v, s₄⟩, value, h⟩ := Except.bind_eq_ok.1 h
        refine ⟨f, s₁, name, s₂, s₃, v, s₄, rfl, rfl, text, colon, value, ?_⟩
        dsimp only at h
        split at h
        · next brace => cases h; exact Or.inl ⟨rfl, brace⟩
        · next s₅ comma =>
          obtain ⟨⟨more, s₆⟩, others, h⟩ := Except.bind_eq_ok.1 h
          cases h
          exact Or.inr ⟨s₅, more, comma, others, rfl⟩
        · cases h
      · cases h
    · cases h

/-- One item is read, and the bracket behind it or further items. -/
theorem readItems_eq_ok {fuel : Nat} {items : List Value} (h : readItems fuel s = .ok (items, rest)) :
    ∃ f v s₁, fuel = f + 1 ∧ readValue f s = .ok (v, s₁) ∧
      (items = [v] ∧ skip s₁ = ']' :: rest ∨
        ∃ s₂ more, skip s₁ = ',' :: s₂ ∧ readItems f (skip s₂) = .ok (more, rest) ∧ items = v :: more) := by
  cases fuel with
  | zero => cases h
  | succ f =>
    unfold readItems at h
    obtain ⟨⟨v, s₁⟩, value, h⟩ := Except.bind_eq_ok.1 h
    refine ⟨f, v, s₁, rfl, value, ?_⟩
    dsimp only at h
    split at h
    · next bracket => cases h; exact Or.inl ⟨rfl, bracket⟩
    · next s₂ comma =>
      obtain ⟨⟨more, s₃⟩, others, h⟩ := Except.bind_eq_ok.1 h
      cases h
      exact Or.inr ⟨s₂, more, comma, others, rfl⟩
    · cases h

/-- The five kinds of texts of values. -/
theorem readValue_eq_ok {fuel : Nat} {v : Value} (h : readValue fuel s = .ok (v, rest)) :
    ∃ f, fuel = f + 1 ∧
      ((∃ s₁ t, s = '"' :: s₁ ∧ readText s₁ = .ok (t, rest) ∧ v = .str (String.ofList t)) ∨
        (∃ s₁, s = '{' :: s₁ ∧ skip s₁ = '}' :: rest ∧ v = .ofEntries []) ∨
        (∃ s₁ es, s = '{' :: s₁ ∧ readEntries f (skip s₁) = .ok (es, rest) ∧ v = .ofEntries (Value.entriesOf es)) ∨
        (∃ s₁, s = '[' :: s₁ ∧ skip s₁ = ']' :: rest ∧ v = .ofList []) ∨
        (∃ s₁ vs, s = '[' :: s₁ ∧ readItems f (skip s₁) = .ok (vs, rest) ∧ v = .ofList vs) ∨
        readScalar s = .ok (v, rest)) := by
  cases fuel with
  | zero => cases h
  | succ f =>
    refine ⟨f, rfl, ?_⟩
    unfold readValue at h
    split at h
    · next s₁ =>
      obtain ⟨⟨t, s₂⟩, text, h⟩ := Except.map_eq_ok.1 h
      cases h
      exact Or.inl ⟨s₁, t, rfl, text, rfl⟩
    · next s₁ =>
      refine Or.inr ?_
      split at h
      · next brace => cases h; exact Or.inl ⟨s₁, rfl, brace, rfl⟩
      · obtain ⟨⟨es, s₂⟩, entries, h⟩ := Except.map_eq_ok.1 h
        cases h
        exact Or.inr (Or.inl ⟨s₁, es, rfl, entries, rfl⟩)
    · next s₁ =>
      refine Or.inr (Or.inr (Or.inr ?_))
      split at h
      · next bracket => cases h; exact Or.inl ⟨s₁, rfl, bracket, rfl⟩
      · obtain ⟨⟨vs, s₂⟩, items, h⟩ := Except.map_eq_ok.1 h
        cases h
        exact Or.inr (Or.inl ⟨s₁, vs, rfl, items, rfl⟩)
    · exact Or.inr (Or.inr (Or.inr (Or.inr (Or.inr h))))

theorem readValue_scalar {r : Value × List Char} (h : readScalar s = .ok r) (fuel : Nat) :
    readValue (fuel + 1) s = .ok r := by
  rw [readValue, h]
  all_goals
    rintro rest rfl
    cases h

/-- A whole text is a value, with blanks around it. -/
theorem readWhole_eq_ok {v : Value} (h : readWhole s = .ok v) :
    ∃ rest, readValue (2 * s.length + 2) (skip s) = .ok (v, rest) ∧ skip rest = [] := by
  unfold readWhole at h
  split at h
  · cases h
  · obtain ⟨⟨v, rest⟩, value, h⟩ := Except.bind_eq_ok.1 h
    dsimp only at h
    split at h
    · next behind => cases h; exact ⟨rest, value, behind⟩
    · cases h

/-! ## What is passed -/

/-- A printable character that no run of minus or equals signs starts with. -/
def IsMark (c : Char) : Prop := (0x21 ≤ c.toNat ∧ c.toNat ≤ 0x7E) ∧ c ≠ '-' ∧ c ≠ '='

instance (c : Char) : Decidable (IsMark c) := inferInstanceAs (Decidable (_ ∧ _))

/-- The text is `rest` behind blanks, marks, minus signs with marks behind them, and quoted texts. -/
inductive Passes (rest : List Char) : List Char → Prop
  | refl : Passes rest rest
  | blank {c : Char} {s : List Char} : isBlank c = true → Passes rest s → Passes rest (c :: s)
  | mark {c : Char} {s : List Char} : IsMark c → Passes rest s → Passes rest (c :: s)
  | minus {c : Char} {s : List Char} : IsMark c → Passes rest s → Passes rest ('-' :: c :: s)
  | quoted {q s : List Char} : (∀ c ∈ q, 0x20 ≤ c.toNat) → Passes rest s → Passes rest ('"' :: (q ++ '"' :: s))

namespace Passes

theorem trans {s t u : List Char} (h : Passes t s) (h' : Passes u t) : Passes u s := by
  induction h with
  | refl => exact h'
  | blank hc _ ih => exact .blank hc ih
  | mark hc _ ih => exact .mark hc ih
  | minus hc _ ih => exact .minus hc ih
  | quoted hq _ ih => exact .quoted hq ih

theorem suffix (h : Passes rest s) : rest <:+ s := by
  induction h with
  | refl => exact List.suffix_rfl
  | blank _ _ ih => exact ih.trans (List.suffix_cons _ _)
  | mark _ _ ih => exact ih.trans (List.suffix_cons _ _)
  | minus _ _ ih => exact ih.trans ((List.suffix_cons _ _).trans (List.suffix_cons _ _))
  | quoted _ _ ih =>
    exact ih.trans ((List.suffix_cons _ _).trans ((List.suffix_append _ _).trans (List.suffix_cons _ _)))

theorem skip (s : List Char) : Passes (skip s) s := by
  induction s with
  | nil => exact .refl
  | cons c s ih =>
    cases hc : isBlank c with
    | true =>
      have e : Json.skip (c :: s) = Json.skip s := by simp [Json.skip, hc]
      rw [e]
      exact .blank hc ih
    | false =>
      have e : Json.skip (c :: s) = c :: s := by simp [Json.skip, hc]
      rw [e]
      exact .refl

/-- Blanks and a mark behind them. -/
theorem of_skip {c : Char} (h : Json.skip s = c :: rest) (hc : IsMark c) : Passes rest s :=
  (h ▸ Passes.skip s).trans (.mark hc .refl)

theorem marks {w : List Char} (h : ∀ c ∈ w, IsMark c) (rest : List Char) : Passes rest (w ++ rest) := by
  induction w with
  | nil => exact .refl
  | cons c w ih =>
    obtain ⟨first, others⟩ := List.forall_mem_cons.1 h
    exact .mark first (ih others)

end Passes

theorem isMark_digit {c : Char} (h : isDigit c = true) : IsMark c := by
  have range : '0'.toNat ≤ c.toNat ∧ c.toNat ≤ '9'.toNat := by
    simpa [isDigit, Char.le_def, UInt32.le_iff_toNat_le] using h
  have zero : '0'.toNat = 48 := rfl
  have nine : '9'.toNat = 57 := rfl
  refine ⟨⟨by omega, by omega⟩, ?_, ?_⟩ <;> (rintro rfl; cases h)

theorem passes_digits (s : List Char) : Passes (s.dropWhile isDigit) s := by
  have h := Passes.marks (w := s.takeWhile isDigit) (fun c hc => isMark_digit (List.mem_takeWhile_imp hc))
    (s.dropWhile isDigit)
  rwa [List.takeWhile_append_dropWhile] at h

theorem passes_takeFraction {ds : List Char} (h : takeFraction s = some (ds, rest)) : Passes rest s := by
  unfold takeFraction at h
  split at h
  · next after =>
    split at h
    · cases h
    · next e =>
      cases h
      have digits := passes_digits after
      rw [(Prod.mk.inj e).2] at digits
      exact .mark (by decide) digits
  · cases h

/-! ## Exponents -/

/-- The sign in front of an exponent, and the text behind it. -/
def leadingSign : List Char → Bool × List Char
  | '+' :: s => (false, s)
  | '-' :: s => (true, s)
  | s => (false, s)

/-- The exponent with a sign. -/
def exponentOf (signed : Bool × List Char) : Option (Int × List Char) :=
  match Double.takeDigits signed.2 with
  | ([], _) => none
  | (ds, after) =>
    let n : Nat := Nat.ofDigitChars 10 ds 0
    some (if signed.1 then -(n : Int) else n, after)

theorem leadingSign_of_ne {s : List Char} (plus : s.head? ≠ some '+') (minus : s.head? ≠ some '-') :
    leadingSign s = (false, s) := by
  unfold leadingSign
  split
  · exact absurd rfl plus
  · exact absurd rfl minus
  · rfl

theorem takeExponent?_cons (e : Char) (s : List Char) :
    Double.takeExponent? (e :: s) = if e == 'e' || e == 'E' then exponentOf (leadingSign s) else none := by
  by_cases plus : s.head? = some '+'
  · obtain ⟨s, rfl⟩ := List.head?_eq_some_iff.1 plus
    rfl
  · by_cases minus : s.head? = some '-'
    · obtain ⟨s, rfl⟩ := List.head?_eq_some_iff.1 minus
      rfl
    · rw [leadingSign_of_ne plus minus]
      cases s with
      | nil => rfl
      | cons c s =>
        simp only [List.head?_cons, Option.some.injEq] at plus minus
        rcases digits : Double.takeDigits (c :: s) with ⟨_ | ⟨d, ds⟩, after⟩
        · simp [Double.takeExponent?, exponentOf, plus, minus, digits]
        · simp [Double.takeExponent?, exponentOf, plus, minus, digits]

/-- Behind the sign of an exponent stands a digit. -/
theorem passes_leadingSign {e : Int} (h : exponentOf (leadingSign s) = some (e, rest)) : Passes rest s := by
  unfold exponentOf at h
  split at h
  · cases h
  · next ds after taken =>
    cases h
    obtain ⟨rfl, rfl⟩ := Prod.mk.inj taken
    have digits := passes_digits (leadingSign s).2
    by_cases plus : s.head? = some '+'
    · obtain ⟨s, rfl⟩ := List.head?_eq_some_iff.1 plus
      exact .mark (by decide) digits
    · by_cases minus : s.head? = some '-'
      · obtain ⟨s, rfl⟩ := List.head?_eq_some_iff.1 minus
        cases s with
        | nil => exact absurd rfl (by assumption)
        | cons c s =>
          cases hc : isDigit c with
          | false =>
            have none : (c :: s).takeWhile isDigit = [] := by simp [hc]
            exact absurd none (by assumption)
          | true =>
            have e : (c :: s).dropWhile isDigit = s.dropWhile isDigit := by simp [hc]
            change Passes ((c :: s).dropWhile isDigit) ('-' :: c :: s)
            rw [e]
            exact .minus (isMark_digit hc) (passes_digits s)
      · rwa [leadingSign_of_ne plus minus] at digits ⊢

theorem passes_takeExponent? {e : Int} (h : Double.takeExponent? s = some (e, rest)) : Passes rest s := by
  cases s with
  | nil => cases h
  | cons c s =>
    rw [takeExponent?_cons] at h
    split at h
    · next letter =>
      have mark : IsMark c := by
        simp only [Bool.or_eq_true, beq_iff_eq] at letter
        rcases letter with rfl | rfl <;> decide
      exact .mark mark (passes_leadingSign h)
    · cases h

theorem passes_numberFrom {negative : Bool} {ds : List Char} {v : Value}
    (h : numberFrom negative ds s = .ok (v, rest)) : Passes rest s := by
  have fraction : Passes ((takeFraction s).getD ([], s)).2 s := by
    cases e : takeFraction s with
    | none => exact .refl
    | some r => exact passes_takeFraction e
  have exponent (s' : List Char) : Passes ((Double.takeExponent? s').getD (0, s')).2 s' := by
    cases e : Double.takeExponent? s' with
    | none => exact .refl
    | some r => exact passes_takeExponent? e
  unfold numberFrom at h
  dsimp only at h
  split at h
  · split at h
    · cases h
    · cases h; exact .refl
  · cases h
    exact fraction.trans (exponent _)

theorem passes_literal {word : List Char} {v : Value} (h : (word, v) ∈ literals) (rest : List Char) :
    Passes rest (word ++ rest) := by
  simp only [literals, List.mem_cons, Prod.mk.injEq, List.not_mem_nil, or_false] at h
  rcases h with ⟨rfl, -⟩ | ⟨rfl, -⟩ | ⟨rfl, -⟩ | ⟨rfl, -⟩ | ⟨rfl, -⟩ | ⟨rfl, -⟩
  case inr.inr.inr.inr.inr => exact .minus (by decide) (Passes.marks (w := "nfinity".toList) (by simp [IsMark]) rest)
  all_goals exact Passes.marks (by simp [IsMark]) rest

theorem passes_readScalar {v : Value} (h : readScalar s = .ok (v, rest)) : Passes rest s := by
  rcases readScalar_eq_ok h with ⟨word, known, rfl⟩ | ⟨negative, ds, after, rfl, whole, number⟩
  · exact passes_literal known rest
  · have behind := passes_numberFrom number
    have digits : ∀ c ∈ ds, IsMark c := fun c hc => isMark_digit (whole.whole.1 c hc)
    cases negative with
    | false => exact (Passes.marks digits after).trans behind
    | true =>
      obtain ⟨c, cs, rfl⟩ : ∃ c cs, ds = c :: cs := by
        rcases whole.whole.2 with rfl | ⟨c, cs, rfl, -⟩ <;> exact ⟨_, _, rfl⟩
      obtain ⟨first, others⟩ := List.forall_mem_cons.1 digits
      exact .minus first ((Passes.marks others after).trans behind)

theorem passes_readText {t : List Char} (h : readText s = .ok (t, rest)) : Passes rest ('"' :: s) := by
  obtain ⟨units, h, -⟩ := readText_eq_ok h
  obtain ⟨q, rfl, printed⟩ : ∃ q, s = q ++ '"' :: rest ∧ ∀ c ∈ q, 0x20 ≤ c.toNat := by
    refine readUnits_induction (P := fun s _ => ∃ q, s = q ++ '"' :: rest ∧ ∀ c ∈ q, 0x20 ≤ c.toNat)
      ⟨[], rfl, by simp⟩ ?_ h
    rintro w n s units isUnit - ⟨q, rfl, printed⟩
    exact ⟨w ++ q, (List.append_assoc _ _ _).symm, List.forall_mem_append.2 ⟨isUnit.printed, printed⟩⟩
  exact .quoted printed .refl

/-- What each of the three readers passes; objects end with a brace. -/
theorem passes_read (fuel : Nat) :
    (∀ {s rest v}, readValue fuel s = .ok (v, rest) → Passes rest s) ∧
    (∀ {s rest es}, readEntries fuel s = .ok (es, rest) → Passes ('}' :: rest) s) ∧
    (∀ {s rest vs}, readItems fuel s = .ok (vs, rest) → Passes rest s) := by
  induction fuel with
  | zero => refine ⟨?_, ?_, ?_⟩ <;> (intro _ _ _ h; cases h)
  | succ fuel ih =>
    obtain ⟨value, entries, items⟩ := ih
    refine ⟨?_, ?_, ?_⟩ <;> intro s rest _ h
    · obtain ⟨f, ⟨⟩, h⟩ := readValue_eq_ok h
      rcases h with ⟨s, t, rfl, text, -⟩ | ⟨s, rfl, brace, -⟩ | ⟨s, es, rfl, read, -⟩ | ⟨s, rfl, bracket, -⟩ |
        ⟨s, vs, rfl, read, -⟩ | scalar
      · exact passes_readText text
      · exact .mark (by decide) (Passes.of_skip brace (by decide))
      · exact .mark (by decide) ((Passes.skip s).trans ((entries read).trans (.mark (by decide) .refl)))
      · exact .mark (by decide) (Passes.of_skip bracket (by decide))
      · exact .mark (by decide) ((Passes.skip s).trans (items read))
      · exact passes_readScalar scalar
    · obtain ⟨f, s₁, name, s₂, s₃, v, s₄, ⟨⟩, rfl, text, colon, read, h⟩ := readEntries_eq_ok h
      have front : Passes s₄ ('"' :: s₁) := (passes_readText text).trans
        ((Passes.of_skip colon (by decide)).trans ((Passes.skip s₃).trans (value read)))
      rcases h with ⟨-, brace⟩ | ⟨s₅, more, comma, others, -⟩
      · exact front.trans (brace ▸ Passes.skip s₄)
      · exact front.trans ((Passes.of_skip comma (by decide)).trans ((Passes.skip s₅).trans (entries others)))
    · obtain ⟨f, v, s₁, ⟨⟩, read, h⟩ := readItems_eq_ok h
      rcases h with ⟨-, bracket⟩ | ⟨s₂, more, comma, others, -⟩
      · exact (value read).trans (Passes.of_skip bracket (by decide))
      · exact (value read).trans
          ((Passes.of_skip comma (by decide)).trans ((Passes.skip s₂).trans (items others)))

end ZincModel.Json
