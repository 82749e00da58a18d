import Mathlib.Data.List.DropRight
import ZincModel.Proofs.Json.Fitting
import ZincModel.Proofs.Text.Line

/-!
# Layout does not matter

What is read from a JSON text does not depend on how it is laid out. Two texts are laid out differently (`Relaid`) if
they have the same characters, but for rows of blanks other than spaces, and for blanks at their ends. A text between
quotes holds no such rows, so it is the same in both. The readers go through both texts side by side (`Agree`), and
end with the same value, the same complaint but for its place, or the same row of too many digits (`read_relaid`).
-/

namespace ZincModel.Json

open Text (isDigit unifyNewlines unifyNewlines_cons IsApart lines_induction)
open Double (takeDigits takeExponent?)

/-! ## Changes of layout -/

/-- A row of blanks that cannot stand between quotes. -/
def IsBreak (w : List Char) : Prop := w ≠ [] ∧ ∀ c ∈ w, isBlank c = true ∧ c ≠ ' '

/-- The texts are the same but for their layout. -/
inductive Relaid : List Char → List Char → Prop
  | ends {a b : List Char} : (∀ c ∈ a, isBlank c = true) → (∀ c ∈ b, isBlank c = true) → Relaid a b
  | inner {c : Char} {s t : List Char} : isBlank c = false → Relaid s t → Relaid (c :: s) (c :: t)
  | space {s t : List Char} : Relaid s t → Relaid (' ' :: s) (' ' :: t)
  | gap {a b s t : List Char} : IsBreak a → IsBreak b → Relaid s t → Relaid (a ++ s) (b ++ t)

theorem digit_not_blank {c : Char} (h : isBlank c = true) : isDigit c = false := by
  simp only [isBlank, Bool.or_eq_true, beq_iff_eq] at h
  rcases h with ((rfl | rfl) | rfl) | rfl <;> rfl

theorem digit_inner {c : Char} (h : isDigit c = true) : isBlank c = false := by
  by_contra blank
  rw [digit_not_blank (by simpa using blank)] at h
  cases h

theorem literal_not_blank {word : List Char} {v : Value} (h : (word, v) ∈ literals) :
    ∀ c ∈ word, isBlank c = false := by
  simp only [literals, List.mem_cons, Prod.mk.injEq, List.not_mem_nil, or_false] at h
  rcases h with ⟨rfl, -⟩ | ⟨rfl, -⟩ | ⟨rfl, -⟩ | ⟨rfl, -⟩ | ⟨rfl, -⟩ | ⟨rfl, -⟩ <;> simp [isBlank]

theorem skip_blanks {s : List Char} : skip s = [] ↔ ∀ c ∈ s, isBlank c = true := List.dropWhile_eq_nil_iff

theorem skip_inner {c : Char} (h : isBlank c = false) (s : List Char) : skip (c :: s) = c :: s := by
  simp [skip, h]

theorem skip_append {a : List Char} (h : ∀ c ∈ a, isBlank c = true) (s : List Char) : skip (a ++ s) = skip s :=
  List.dropWhile_append_of_pos h

theorem length_skip_le (s : List Char) : (skip s).length ≤ s.length := (List.dropWhile_suffix _).length_le

/-- Less is left behind a character and the blanks around it. -/
theorem length_skip_lt {c : Char} {s rest : List Char} (h : skip s = c :: rest) : (skip rest).length < s.length := by
  have le := length_skip_le s
  rw [h] at le
  exact lt_of_le_of_lt (length_skip_le rest) le

namespace Relaid

variable {s t : List Char} {c : Char}

theorem symm (h : Relaid s t) : Relaid t s := by
  induction h with
  | ends ha hb => exact .ends hb ha
  | inner hc _ ih => exact .inner hc ih
  | space _ ih => exact .space ih
  | gap ha hb _ ih => exact .gap hb ha ih

/-- Where a character is that is no blank, there it is in the other layout. -/
theorem cons (h : Relaid (c :: s) t) (hc : isBlank c = false) : ∃ t', t = c :: t' ∧ Relaid s t' := by
  generalize e : c :: s = u at h
  cases h with
  | ends ha =>
    subst e
    rw [ha c List.mem_cons_self] at hc
    cases hc
  | inner _ h => cases e; exact ⟨_, rfl, h⟩
  | space => cases e; cases hc
  | gap ha =>
    obtain ⟨d, a, rfl⟩ := List.exists_cons_of_ne_nil ha.1
    cases e
    rw [(ha.2 c List.mem_cons_self).1] at hc
    cases hc

/-- A space stays, unless there are blanks only. -/
theorem cons_space (h : Relaid (' ' :: s) t) :
    (∃ t', t = ' ' :: t' ∧ Relaid s t') ∨ ∀ c ∈ s, isBlank c = true := by
  generalize e : ' ' :: s = u at h
  cases h with
  | ends ha => subst e; exact Or.inr fun c hc => ha c (List.mem_cons_of_mem _ hc)
  | inner hc => cases e; cases hc
  | space h => cases e; exact Or.inl ⟨_, rfl, h⟩
  | gap ha =>
    obtain ⟨d, a, rfl⟩ := List.exists_cons_of_ne_nil ha.1
    cases e
    exact absurd rfl (ha.2 ' ' List.mem_cons_self).2

/-- What holds no blanks stays as it is. -/
theorem append {w : List Char} (h : Relaid (w ++ s) t) (hw : ∀ c ∈ w, isBlank c = false) :
    ∃ t', t = w ++ t' ∧ Relaid s t' := by
  induction w generalizing t with
  | nil => exact ⟨t, rfl, h⟩
  | cons c w ih =>
    obtain ⟨first, others⟩ := List.forall_mem_cons.1 hw
    obtain ⟨u, rfl, inner⟩ := cons h first
    obtain ⟨t', rfl, behind⟩ := ih inner others
    exact ⟨t', rfl, behind⟩

theorem skip (h : Relaid s t) : Relaid (skip s) (skip t) := by
  induction h with
  | ends ha hb =>
    rw [skip_blanks.2 ha, skip_blanks.2 hb]
    exact .ends (by simp) (by simp)
  | inner hc h => rw [skip_inner hc, skip_inner hc]; exact .inner hc h
  | space _ ih => exact ih
  | gap ha hb _ ih =>
    rw [skip_append fun c hc => (ha.2 c hc).1, skip_append fun c hc => (hb.2 c hc).1]
    exact ih

/-- Behind blanks both texts end, or go on with the same character. -/
theorem skip_cases (h : Relaid s t) :
    (Json.skip s = [] ∧ Json.skip t = []) ∨
      ∃ c s' t', Json.skip s = c :: s' ∧ Json.skip t = c :: t' ∧ Relaid s' t' ∧
        (Json.skip s').length < s.length ∧ (Json.skip t').length < t.length := by
  have stops {c : Char} {s s' : List Char} (e : Json.skip s = c :: s') : isBlank c = false := by
    have h := List.head?_dropWhile_not isBlank s
    rw [show s.dropWhile isBlank = c :: s' from e] at h
    simpa using h
  have skipped := h.skip
  cases hs : Json.skip s with
  | cons c s' =>
    rw [hs] at skipped
    obtain ⟨t', e, h⟩ := skipped.cons (stops hs)
    exact Or.inr ⟨c, s', t', rfl, e, h, length_skip_lt hs, length_skip_lt e⟩
  | nil =>
    cases ht : Json.skip t with
    | nil => exact Or.inl ⟨rfl, rfl⟩
    | cons c t' =>
      rw [hs, ht] at skipped
      obtain ⟨s', e, -⟩ := skipped.symm.cons (stops ht)
      cases e

/-- The first character is the same, if it is no blank. -/
theorem head?_eq_iff (h : Relaid s t) (hc : isBlank c = false) : s.head? = some c ↔ t.head? = some c := by
  have one {s t : List Char} (h : Relaid s t) (hs : s.head? = some c) : t.head? = some c := by
    obtain ⟨s, rfl⟩ := List.head?_eq_some_iff.1 hs
    obtain ⟨t', rfl, -⟩ := h.cons hc
    rfl
  exact ⟨one h, one h.symm⟩

end Relaid

/-! ## Readings of two layouts -/

/-- The same was read, and what is left has another layout. -/
def Same {α : Type} (r r' : α × List Char) : Prop := r.1 = r'.1 ∧ Relaid r.2 r'.2

theorem Same.symm {α : Type} {r r' : α × List Char} (h : Same r r') : Same r' r := ⟨h.1.symm, h.2.symm⟩

/-- Two readings end alike: with results that are `R`, with the same row of too many digits, or with complaints. -/
inductive Agree {α : Type} (R : α → α → Prop) : Except Stop α → Except Stop α → Prop
  | ok {a b : α} : R a b → Agree R (.ok a) (.ok b)
  | tooLong (digits : Nat) : Agree R (.error (.tooLong digits)) (.error (.tooLong digits))
  | complain (c : Complaint) (n : Nat) (c' : Complaint) (n' : Nat) :
      Agree R (.error (.complain c n)) (.error (.complain c' n'))

namespace Agree

variable {α β : Type} {R : α → α → Prop} {Q : β → β → Prop} {x y : Except Stop α}

theorem symm (h : Agree R x y) (back : ∀ {a b}, R a b → R b a) : Agree R y x := by
  cases h with
  | ok h => exact .ok (back h)
  | tooLong digits => exact .tooLong digits
  | complain => exact .complain _ _ _ _

/-- What is read next agrees, if it does in all that can be left. -/
theorem bind {x y : Reading α} {f g : α × List Char → Except Stop β} (first : Agree Same x y)
    (next : ∀ a s t, x = .ok (a, s) → y = .ok (a, t) → Relaid s t → Agree Q (f (a, s)) (g (a, t))) :
    Agree Q (x >>= f : Except Stop β) (y >>= g : Except Stop β) := by
  cases first with
  | @ok r r' h =>
    obtain ⟨a, s⟩ := r
    obtain ⟨b, t⟩ := r'
    obtain ⟨rfl, h⟩ := h
    exact next a s t rfl rfl h
  | tooLong digits => exact .tooLong digits
  | complain => exact .complain _ _ _ _

theorem map {f : α → β} (h : Agree R x y) (result : ∀ a b, R a b → Q (f a) (f b)) : Agree Q (x.map f) (y.map f) := by
  cases h with
  | ok h => exact .ok (result _ _ h)
  | tooLong digits => exact .tooLong digits
  | complain => exact .complain _ _ _ _

end Agree

/-! ## Numbers -/

section Scalars

variable {s t : List Char}

theorem stops_relaid (h : Relaid s t) (stops : Double.Stops s) : Double.Stops t := by
  intro c hc
  by_contra digit
  have digit : isDigit c = true := by simpa using digit
  rw [stops c ((h.head?_eq_iff (digit_inner digit)).2 hc)] at digit
  cases digit

theorem takeDigits_relaid (h : Relaid s t) : Same (takeDigits s) (takeDigits t) := by
  have digits : ∀ c ∈ s.takeWhile isDigit, isDigit c = true := fun c hc => List.mem_takeWhile_imp hc
  have parts : s = s.takeWhile isDigit ++ s.dropWhile isDigit := List.takeWhile_append_dropWhile.symm
  rw [parts] at h
  obtain ⟨t', rfl, behind⟩ := h.append fun c hc => digit_inner (digits c hc)
  rw [Double.takeDigits_append digits (stops_relaid behind (stops_dropWhile s))]
  exact ⟨rfl, behind⟩

theorem takeFraction_relaid (h : Relaid s t) : Option.Rel Same (takeFraction s) (takeFraction t) := by
  have absent {s : List Char} (hs : s.head? ≠ some '.') : takeFraction s = none := by
    unfold takeFraction
    split
    · exact absurd rfl hs
    · rfl
  by_cases hs : s.head? = some '.'
  · obtain ⟨s, rfl⟩ := List.head?_eq_some_iff.1 hs
    obtain ⟨t, rfl, behind⟩ := h.cons rfl
    obtain ⟨digits, behind⟩ := takeDigits_relaid behind
    rw [takeFraction, takeFraction]
    generalize takeDigits s = x at digits behind
    generalize takeDigits t = y at digits behind
    obtain ⟨ds, after⟩ := x
    obtain ⟨ds', after'⟩ := y
    cases digits
    cases ds with
    | nil => exact .none
    | cons d ds => exact .some ⟨rfl, behind⟩
  · rw [absent hs, absent fun ht => hs ((h.head?_eq_iff rfl).2 ht)]
    exact .none

theorem leadingSign_relaid (h : Relaid s t) : Same (leadingSign s) (leadingSign t) := by
  have sign {c : Char} (hc : isBlank c = false) (hs : s.head? = some c) :
      ∃ s' t', s = c :: s' ∧ t = c :: t' ∧ Relaid s' t' := by
    obtain ⟨s, rfl⟩ := List.head?_eq_some_iff.1 hs
    obtain ⟨t, rfl, behind⟩ := h.cons hc
    exact ⟨s, t, rfl, rfl, behind⟩
  by_cases plus : s.head? = some '+'
  · obtain ⟨s, t, rfl, rfl, behind⟩ := sign rfl plus
    exact ⟨rfl, behind⟩
  · by_cases minus : s.head? = some '-'
    · obtain ⟨s, t, rfl, rfl, behind⟩ := sign rfl minus
      exact ⟨rfl, behind⟩
    · rw [leadingSign_of_ne plus minus, leadingSign_of_ne (fun ht => plus ((h.head?_eq_iff rfl).2 ht))
        fun ht => minus ((h.head?_eq_iff rfl).2 ht)]
      exact ⟨rfl, h⟩

theorem exponentOf_relaid {r r' : Bool × List Char} (h : Same r r') :
    Option.Rel Same (exponentOf r) (exponentOf r') := by
  obtain ⟨sign, behind⟩ := h
  obtain ⟨digits, behind⟩ := takeDigits_relaid behind
  unfold exponentOf
  rw [sign]
  generalize takeDigits r.2 = x at digits behind
  generalize takeDigits r'.2 = y at digits behind
  obtain ⟨ds, after⟩ := x
  obtain ⟨ds', after'⟩ := y
  cases digits
  cases ds with
  | nil => exact .none
  | cons d ds => exact .some ⟨rfl, behind⟩

theorem takeExponent?_relaid (h : Relaid s t) : Option.Rel Same (takeExponent? s) (takeExponent? t) := by
  have absent {s : List Char} (lower : s.head? ≠ some 'e') (upper : s.head? ≠ some 'E') : takeExponent? s = none := by
    cases s with
    | nil => rfl
    | cons c s =>
      rw [takeExponent?_cons, if_neg]
      simpa using And.intro lower upper
  have present {e : Char} (letter : (e == 'e' || e == 'E') = true) (inner : isBlank e = false)
      (hs : s.head? = some e) : Option.Rel Same (takeExponent? s) (takeExponent? t) := by
    obtain ⟨s, rfl⟩ := List.head?_eq_some_iff.1 hs
    obtain ⟨t, rfl, behind⟩ := h.cons inner
    rw [takeExponent?_cons, takeExponent?_cons, if_pos letter, if_pos letter]
    exact exponentOf_relaid (leadingSign_relaid behind)
  by_cases lower : s.head? = some 'e'
  · exact present rfl rfl lower
  · by_cases upper : s.head? = some 'E'
    · exact present rfl rfl upper
    · rw [absent lower upper, absent (fun ht => lower ((h.head?_eq_iff rfl).2 ht))
        fun ht => upper ((h.head?_eq_iff rfl).2 ht)]
      exact .none

theorem numberFrom_agree (h : Relaid s t) (negative : Bool) (whole : List Char) :
    Agree Same (numberFrom negative whole s) (numberFrom negative whole t) := by
  have fraction := takeFraction_relaid h
  unfold numberFrom
  dsimp only
  generalize takeFraction s = x at fraction ⊢
  generalize takeFraction t = y at fraction ⊢
  cases fraction with
  | none =>
    have exponent := takeExponent?_relaid h
    simp only [Option.getD_none]
    generalize takeExponent? s = x at exponent ⊢
    generalize takeExponent? t = y at exponent ⊢
    cases exponent with
    | none =>
      simp only [Option.isNone_none, Bool.and_true, if_true]
      split
      · exact .tooLong _
      · exact .ok ⟨rfl, h⟩
    | some same => exact .ok ⟨by rw [Option.getD_some, Option.getD_some, same.1], same.2⟩
  | @some r r' same =>
    have exponent := takeExponent?_relaid same.2
    simp only [Option.getD_some, same.1]
    generalize takeExponent? r.2 = x at exponent ⊢
    generalize takeExponent? r'.2 = y at exponent ⊢
    cases exponent with
    | none => exact .ok ⟨rfl, same.2⟩
    | some again => exact .ok ⟨by rw [Option.getD_some, Option.getD_some, again.1], again.2⟩

/-- A word or the whole part of a number stands at the start of the text. -/
inductive IsScalar : List Char → Prop
  | literal {word rest : List Char} {v : Value} : (word, v) ∈ literals → IsScalar (word ++ rest)
  | number {negative : Bool} {ds rest : List Char} : IsWholeOf ds rest → IsScalar (signed negative (ds ++ rest))

/-- Nothing else is read as a scalar. -/
theorem readScalar_complain (h : ¬IsScalar s) : readScalar s = .error (.complain .value s.length) := by
  have number (negative : Bool) {s' : List Char} (e : s = signed negative s') : readUnsigned? negative s' = none := by
    cases read : readUnsigned? negative s' with
    | none => rfl
    | some r =>
      obtain ⟨ds, rest, rfl, whole, -⟩ := readUnsigned?_eq_some read
      exact absurd (e ▸ .number whole) h
  have word {w rest : List Char} {v : Value} (known : (w, v) ∈ literals) (e : s = w ++ rest) : False :=
    h (e ▸ .literal known)
  unfold readScalar
  dsimp only
  split
  · exact (word (v := .null) (w := "null".toList) (by simp [literals]) rfl).elim
  · exact (word (v := .bool true) (w := "true".toList) (by simp [literals]) rfl).elim
  · exact (word (v := .bool false) (w := "false".toList) (by simp [literals]) rfl).elim
  · exact (word (v := .float (some nanNumber) .nan) (w := "NaN".toList) (by simp [literals]) rfl).elim
  · exact (word (v := .ofDouble (.infinite false)) (w := "Infinity".toList) (by simp [literals]) rfl).elim
  · exact (word (v := .ofDouble (.infinite true)) (w := "-Infinity".toList) (by simp [literals]) rfl).elim
  · rw [number true rfl]
    rfl
  · rw [number false rfl]
    rfl

theorem isWholeOf_relaid {ds : List Char} (h : Relaid s t) (whole : IsWholeOf ds s) : IsWholeOf ds t :=
  ⟨whole.whole, whole.stops.imp_right (stops_relaid h)⟩

theorem readScalar_agree (h : Relaid s t) : Agree Same (readScalar s) (readScalar t) := by
  have one {s t : List Char} (h : Relaid s t) (scalar : IsScalar s) : Agree Same (readScalar s) (readScalar t) := by
    cases scalar with
    | literal known =>
      obtain ⟨t, rfl, behind⟩ := h.append (literal_not_blank known)
      rw [readScalar_literal known, readScalar_literal known]
      exact .ok ⟨rfl, behind⟩
    | @number negative ds rest whole =>
      have digits : ∀ c ∈ ds, isBlank c = false := fun c hc => digit_inner (whole.whole.1 c hc)
      have spelled (s : List Char) : signed negative (ds ++ s) = signed negative ds ++ s := by
        cases negative <;> rfl
      have inner : ∀ c ∈ signed negative ds, isBlank c = false := by
        cases negative with
        | false => exact digits
        | true => exact List.forall_mem_cons.2 ⟨rfl, digits⟩
      obtain ⟨t, rfl, behind⟩ := (spelled rest ▸ h).append inner
      rw [← spelled, whole.readScalar, (isWholeOf_relaid behind whole).readScalar]
      exact numberFrom_agree behind negative ds
  by_cases hs : IsScalar s
  · exact one h hs
  · by_cases ht : IsScalar t
    · exact (one h.symm ht).symm Same.symm
    · rw [readScalar_complain hs, readScalar_complain ht]
      exact .complain _ _ _ _

end Scalars

/-! ## Texts -/

section Texts

variable {s t rest : List Char}

theorem quote_of_readUnits {units : List Nat} (h : readUnits s = .ok (units, rest)) : '"' ∈ s :=
  readUnits_induction (P := fun s _ => '"' ∈ s) List.mem_cons_self
    (fun _ _ _ _ _ _ inside => List.mem_append_right _ inside) h

theorem readUnits_relaid {units : List Nat} (read : readUnits s = .ok (units, rest)) (h : Relaid s t) :
    ∃ rest', readUnits t = .ok (units, rest') ∧ Relaid rest rest' := by
  refine readUnits_induction
    (P := fun s units => ∀ t, Relaid s t → ∃ rest', readUnits t = .ok (units, rest') ∧ Relaid rest rest') ?_ ?_ read t h
  · intro t h
    obtain ⟨t, rfl, behind⟩ := h.cons rfl
    exact ⟨t, rfl, behind⟩
  · intro w n s units isUnit more ih t h
    have parts : ∃ t', t = w ++ t' ∧ Relaid s t' := by
      rcases isUnit.inner with rfl | inner
      · rcases h.cons_space with parts | blanks
        · exact parts
        · cases blanks _ (quote_of_readUnits more)
      · exact h.append inner
    obtain ⟨t', rfl, others⟩ := parts
    obtain ⟨rest', again, behind⟩ := ih t' others
    refine ⟨rest', ?_, behind⟩
    rw [isUnit.read _ (readUnits_ne_nil again), again]
    rfl

theorem readText_relaid {w : List Char} (read : readText s = .ok (w, rest)) (h : Relaid s t) :
    ∃ rest', readText t = .ok (w, rest') ∧ Relaid rest rest' := by
  obtain ⟨units, unitsRead, rfl⟩ := readText_eq_ok read
  obtain ⟨rest', again, behind⟩ := readUnits_relaid unitsRead h
  exact ⟨rest', by rw [readText, again], behind⟩

/-- The readers of texts do not look at numbers, so they are stopped by complaints only. -/
theorem readText_error {stop : Stop} (h : readText s = .error stop) : ∃ c n, stop = .complain c n := by
  have units := readUnits_ends s
  unfold readText at h
  split at h
  · cases h
  · next stop? e =>
    rw [e] at units
    cases h
    match stop? with
    | none => exact ⟨_, _, rfl⟩
    | some (.complain c n) => exact ⟨c, n, rfl⟩
    | some (.tooLong n) => exact absurd rfl (units.fault n)

theorem readText_agree (h : Relaid s t) : Agree Same (readText s) (readText t) := by
  have one {s t : List Char} {r : List Char × List Char} (h : Relaid s t) (read : readText s = .ok r) :
      Agree Same (readText s) (readText t) := by
    obtain ⟨rest', again, behind⟩ := readText_relaid read h
    rw [read, again]
    exact .ok ⟨rfl, behind⟩
  cases hs : readText s with
  | ok r => exact hs ▸ one h hs
  | error stop =>
    cases ht : readText t with
    | ok r => exact hs ▸ ht ▸ (one h.symm ht).symm Same.symm
    | error stop' =>
      obtain ⟨c, n, rfl⟩ := readText_error hs
      obtain ⟨c', n', rfl⟩ := readText_error ht
      exact .complain c n c' n'

end Texts

/-! ## Values -/

theorem length_le_of_readValue {fuel : Nat} {s rest : List Char} {v : Value}
    (h : readValue fuel s = .ok (v, rest)) : rest.length ≤ s.length :=
  ((passes_read fuel).1 h).suffix.length_le

theorem length_le_of_readText {s rest t : List Char} (h : readText s = .ok (t, rest)) : rest.length ≤ s.length := by
  obtain ⟨units, h, -⟩ := readText_eq_ok h
  refine readUnits_induction (P := fun s _ => rest.length ≤ s.length) (by simp) ?_ h
  intro w n s units _ _ le
  simp only [List.length_append]
  omega

theorem readValue_brace (n : Nat) (s : List Char) :
    readValue (n + 1) ('{' :: s) =
      if (skip s).head? = some '}' then .ok (.ofEntries [], (skip s).tail)
      else (readEntries n (skip s)).map fun r => (.ofEntries (Value.entriesOf r.1), r.2) := by
  rw [readValue]
  split
  · next e => rw [e]; rfl
  · next opened =>
    rw [if_neg]
    intro closed
    obtain ⟨after, e⟩ := List.head?_eq_some_iff.1 closed
    exact opened after e

theorem readValue_bracket (n : Nat) (s : List Char) :
    readValue (n + 1) ('[' :: s) =
      if (skip s).head? = some ']' then .ok (.ofList [], (skip s).tail)
      else (readItems n (skip s)).map fun r => (.ofList r.1, r.2) := by
  rw [readValue]
  split
  · next e => rw [e]; rfl
  · next opened =>
    rw [if_neg]
    intro closed
    obtain ⟨after, e⟩ := List.head?_eq_some_iff.1 closed
    exact opened after e

/-- Behind the mark that opens it, a container is closed in both layouts or its parts are read in both. -/
theorem closed_or_agree {α : Type} (value : α → Value) {empty : Value} {close : Char} {s t : List Char}
    {x y : Except Stop (α × List Char)} (inner : isBlank close = false) (h : Relaid s t) (parts : Agree Same x y) :
    Agree Same (if s.head? = some close then .ok (empty, s.tail) else x.map fun r => (value r.1, r.2))
      (if t.head? = some close then .ok (empty, t.tail) else y.map fun r => (value r.1, r.2)) := by
  by_cases closed : s.head? = some close
  · obtain ⟨s, rfl⟩ := List.head?_eq_some_iff.1 closed
    obtain ⟨t, rfl, behind⟩ := h.cons inner
    rw [if_pos List.head?_cons, if_pos List.head?_cons]
    exact .ok ⟨rfl, behind⟩
  · rw [if_neg closed, if_neg fun ht => closed ((h.head?_eq_iff inner).2 ht)]
    exact parts.map fun r r' same => ⟨by rw [same.1], same.2⟩

/-- The readers agree on two layouts, given fuel for each. -/
structure Agreed (n m : Nat) : Prop where
  value {s t : List Char} : Relaid s t → 2 * s.length < n → 2 * t.length < m →
    Agree Same (readValue n s) (readValue m t)
  entries {s t : List Char} : Relaid s t → 2 * s.length + 1 < n → 2 * t.length + 1 < m →
    Agree Same (readEntries n s) (readEntries m t)
  items {s t : List Char} : Relaid s t → 2 * s.length + 1 < n → 2 * t.length + 1 < m →
    Agree Same (readItems n s) (readItems m t)

namespace Agreed

variable {n m : Nat} {s t : List Char}

theorem readValue_succ (inner : Agreed n m) (h : Relaid s t) (fuel : 2 * s.length < n + 1)
    (fuel' : 2 * t.length < m + 1) : Agree Same (readValue (n + 1) s) (readValue (m + 1) t) := by
  by_cases quote : s.head? = some '"'
  · obtain ⟨s, rfl⟩ := List.head?_eq_some_iff.1 quote
    obtain ⟨t, rfl, behind⟩ := h.cons rfl
    simp only [readValue]
    exact (readText_agree behind).map fun r r' same => ⟨by rw [same.1], same.2⟩
  by_cases brace : s.head? = some '{'
  · obtain ⟨s, rfl⟩ := List.head?_eq_some_iff.1 brace
    obtain ⟨t, rfl, behind⟩ := h.cons rfl
    rw [List.length_cons] at fuel fuel'
    have le := length_skip_le s
    have le' := length_skip_le t
    rw [readValue_brace, readValue_brace]
    have entries := inner.entries behind.skip (by omega) (by omega)
    exact closed_or_agree (fun es => .ofEntries (Value.entriesOf es)) rfl behind.skip entries
  by_cases bracket : s.head? = some '['
  · obtain ⟨s, rfl⟩ := List.head?_eq_some_iff.1 bracket
    obtain ⟨t, rfl, behind⟩ := h.cons rfl
    rw [List.length_cons] at fuel fuel'
    have le := length_skip_le s
    have le' := length_skip_le t
    rw [readValue_bracket, readValue_bracket]
    have items := inner.items behind.skip (by omega) (by omega)
    exact closed_or_agree .ofList rfl behind.skip items
  · have scalar {k : Nat} {s : List Char} (quote : s.head? ≠ some '"') (brace : s.head? ≠ some '{')
        (bracket : s.head? ≠ some '[') : readValue (k + 1) s = readScalar s := by
      unfold readValue
      split
      · exact absurd rfl quote
      · exact absurd rfl brace
      · exact absurd rfl bracket
      · rfl
    rw [scalar quote brace bracket, scalar (fun ht => quote ((h.head?_eq_iff rfl).2 ht))
      (fun ht => brace ((h.head?_eq_iff rfl).2 ht)) fun ht => bracket ((h.head?_eq_iff rfl).2 ht)]
    exact readScalar_agree h

theorem readEntries_succ (inner : Agreed n m) (h : Relaid s t) (fuel : 2 * s.length + 1 < n + 1)
    (fuel' : 2 * t.length + 1 < m + 1) : Agree Same (readEntries (n + 1) s) (readEntries (m + 1) t) := by
  by_cases quote : s.head? = some '"'
  · obtain ⟨s, rfl⟩ := List.head?_eq_some_iff.1 quote
    obtain ⟨t, rfl, behind⟩ := h.cons rfl
    rw [List.length_cons] at fuel fuel'
    simp only [readEntries]
    refine (readText_agree behind).bind fun name s₁ t₁ read read' h => ?_
    have left := length_le_of_readText read
    have left' := length_le_of_readText read'
    dsimp only
    rcases h.skip_cases with ⟨e, e'⟩ | ⟨c, s₂, t₂, e, e', h, less, less'⟩ <;> simp only [e, e']
    · exact .complain _ _ _ _
    by_cases colon : c = ':'
    · subst colon
      refine (inner.value h.skip (by omega) (by omega)).bind fun v s₃ t₃ read read' h => ?_
      have left := length_le_of_readValue read
      have left' := length_le_of_readValue read'
      dsimp only
      rcases h.skip_cases with ⟨e, e'⟩ | ⟨c, s₄, t₄, e, e', h, less, less'⟩ <;> simp only [e, e']
      · exact .complain _ _ _ _
      by_cases brace : c = '}'
      · subst brace
        exact .ok ⟨rfl, h⟩
      by_cases comma : c = ','
      · subst comma
        exact (inner.entries h.skip (by omega) (by omega)).bind fun more s₅ t₅ _ _ h => .ok ⟨rfl, h⟩
      · simpa [brace, comma] using Agree.complain .comma (s₄.length + 1) .comma (t₄.length + 1)
    · simpa [colon] using Agree.complain .colon (s₂.length + 1) .colon (t₂.length + 1)
  · have refused {k : Nat} {s : List Char} (hs : s.head? ≠ some '"') :
        readEntries (k + 1) s = .error (.complain .name s.length) := by
      unfold readEntries
      split
      · exact absurd rfl hs
      · rfl
    rw [refused quote, refused fun ht => quote ((h.head?_eq_iff rfl).2 ht)]
    exact .complain _ _ _ _

theorem readItems_succ (inner : Agreed n m) (h : Relaid s t) (fuel : 2 * s.length + 1 < n + 1)
    (fuel' : 2 * t.length + 1 < m + 1) : Agree Same (readItems (n + 1) s) (readItems (m + 1) t) := by
  unfold readItems
  refine (inner.value h (by omega) (by omega)).bind fun v s₁ t₁ read read' h => ?_
  have left := length_le_of_readValue read
  have left' := length_le_of_readValue read'
  dsimp only
  rcases h.skip_cases with ⟨e, e'⟩ | ⟨c, s₂, t₂, e, e', h, less, less'⟩ <;> simp only [e, e']
  · exact .complain _ _ _ _
  by_cases bracket : c = ']'
  · subst bracket
    exact .ok ⟨rfl, h⟩
  by_cases comma : c = ','
  · subst comma
    exact (inner.items h.skip (by omega) (by omega)).bind fun more s₃ t₃ _ _ h => .ok ⟨rfl, h⟩
  · simpa [bracket, comma] using Agree.complain .comma (s₂.length + 1) .comma (t₂.length + 1)

end Agreed

theorem agreed (n m : Nat) : Agreed n m := by
  induction n generalizing m with
  | zero => constructor <;> (intro _ _ _ fuel; omega)
  | succ n ih =>
    cases m with
    | zero => constructor <;> (intro _ _ _ _ fuel; omega)
    | succ m => exact ⟨(ih m).readValue_succ, (ih m).readEntries_succ, (ih m).readItems_succ⟩

/-! ## Whole texts -/

/-- Neither a text nor a value in it starts with a byte order mark. -/
theorem readWhole_mark {s : List Char} (h : (skip s).head? = some '\uFEFF') :
    ∃ c n, readWhole s = .error (.complain c n) := by
  obtain ⟨rest, e⟩ := List.head?_eq_some_iff.1 h
  unfold readWhole
  split
  · exact ⟨_, _, rfl⟩
  · rw [e]
    exact ⟨_, _, rfl⟩

theorem readWhole_agree {s t : List Char} (h : Relaid (skip s) (skip t)) :
    Agree (· = ·) (readWhole s) (readWhole t) := by
  by_cases mark : (skip s).head? = some '\uFEFF'
  · obtain ⟨c, n, e⟩ := readWhole_mark mark
    obtain ⟨c', n', e'⟩ := readWhole_mark ((h.head?_eq_iff rfl).1 mark)
    rw [e, e']
    exact .complain c n c' n'
  · have unmarked {s : List Char} (mark : (skip s).head? ≠ some '\uFEFF') : s.head? ≠ some '\uFEFF' := by
      intro hs
      obtain ⟨s, rfl⟩ := List.head?_eq_some_iff.1 hs
      exact mark rfl
    have le := length_skip_le s
    have le' := length_skip_le t
    simp only [readWhole, if_neg (unmarked mark), if_neg (unmarked fun ht => mark ((h.head?_eq_iff rfl).2 ht))]
    refine ((agreed _ _).value h (by omega) (by omega)).bind fun v s₁ t₁ _ _ h => ?_
    dsimp only
    rcases h.skip_cases with ⟨e, e'⟩ | ⟨c, s₂, t₂, e, e', -⟩ <;> simp only [e, e']
    · exact .ok rfl
    · exact .complain _ _ _ _

/-- Two layouts of one text stand for the same value, or have the same row of too many digits, or both have none. -/
theorem read_relaid {s t : List Char} (h : Relaid (skip s) (skip t)) :
    (∀ v, read s = .ok v ↔ read t = .ok v) ∧ ∀ n, read s = .error (.tooLong n) ↔ read t = .error (.tooLong n) := by
  have whole := readWhole_agree h
  unfold read
  generalize readWhole s = x at whole
  generalize readWhole t = y at whole
  cases whole with
  | ok e => subst e; exact ⟨fun v => Iff.rfl, fun n => Iff.rfl⟩
  | tooLong digits => exact ⟨fun v => Iff.rfl, fun n => Iff.rfl⟩
  | complain c n c' n' => simp [Except.mapError, Stop.locate]

/-! ## Newlines -/

/-- Blanks are blanks with newlines unified. -/
theorem unifyNewlines_blanks {s : List Char} (h : ∀ c ∈ s, isBlank c = true) :
    ∀ c ∈ unifyNewlines s, isBlank c = true := by
  have step {c : Char} {s : List Char} (apart : IsApart c s)
      (ih : (∀ c ∈ s, isBlank c = true) → ∀ c ∈ unifyNewlines s, isBlank c = true)
      (h : ∀ d ∈ c :: s, isBlank d = true) : ∀ d ∈ unifyNewlines (c :: s), isBlank d = true := by
    obtain ⟨first, others⟩ := List.forall_mem_cons.1 h
    rw [unifyNewlines_cons apart]
    refine List.forall_mem_cons.2 ⟨?_, ih others⟩
    split
    · rfl
    · exact first
  induction s using lines_induction with
  | nil => simp [unifyNewlines]
  | crlf s ih =>
    exact List.forall_mem_cons.2 ⟨rfl, ih fun c hc => h c (List.mem_cons_of_mem _ (List.mem_cons_of_mem _ hc))⟩
  | boundary c s _ apart ih => exact step apart ih h
  | inner c s hc ih => exact step (by rintro rfl; cases hc) ih h

/-- Unified newlines and blanks behind are another layout. -/
theorem relaid_unifyNewlines (s : List Char) {b : List Char} (hb : ∀ c ∈ b, isBlank c = true) :
    Relaid (s ++ b) (unifyNewlines s) := by
  have newline {a s t : List Char} (ha : IsBreak a) (h : Relaid s t) : Relaid (a ++ s) ('\n' :: t) :=
    .gap (b := ['\n']) ha ⟨by simp, by simp [isBlank]⟩ h
  have same (c : Char) {s t : List Char} (h : Relaid s t) : Relaid (c :: s) (c :: t) := by
    cases hc : isBlank c with
    | false => exact .inner hc h
    | true =>
      by_cases space : c = ' '
      · exact space ▸ .space h
      · exact .gap (a := [c]) (b := [c]) ⟨by simp, by simp [hc, space]⟩ ⟨by simp, by simp [hc, space]⟩ h
  induction s using lines_induction with
  | nil => exact .ends hb (by simp [unifyNewlines])
  | crlf s ih => exact newline (a := ['\r', '\n']) ⟨by simp, by simp [isBlank]⟩ ih
  | boundary c s _ apart ih =>
    rw [unifyNewlines_cons apart]
    split
    · next e => exact e ▸ newline (a := ['\r']) ⟨by simp, by simp [isBlank]⟩ ih
    · exact same c ih
  | inner c s hc ih =>
    have other : c ≠ '\r' := by rintro rfl; cases hc
    rw [unifyNewlines_cons fun e => absurd e other, if_neg other]
    exact same c ih

end ZincModel.Json
