import ZincModel.Proofs.Failure
import ZincModel.Proofs.Json.Consuming
import ZincModel.Proofs.Json.Objects
import ZincModel.Proofs.Value.Writable

/-!
# Numbers that fit

An integer that is read has no more digits than may be written, so that every value in a JSON text can be shown
(`read_ends`). A longer row of digits is refused, and where that happens the text has such a row (`HasRun`).
-/

namespace ZincModel

open Except (Ends)
open Text (isDigit)

/-- The text has a row of `n` digits somewhere, which are more than are read as an integer. -/
def HasRun (s : List Char) (n : Nat) : Prop :=
  Integer.digitLimit < n ∧ ∃ w, w <:+: s ∧ w.length = n ∧ ∀ c ∈ w, isDigit c = true

theorem HasRun.of_suffix {s t : List Char} {n : Nat} (h : HasRun s n) (inside : s <:+ t) : HasRun t n := by
  obtain ⟨long, w, infix', length, digits⟩ := h
  exact ⟨long, w, infix'.trans inside.isInfix, length, digits⟩

/-- The number of a row of digits, behind what was read before. -/
theorem ofDigitChars_lt {ds : List Char} (digits : ∀ c ∈ ds, isDigit c = true) (init : Nat) :
    Nat.ofDigitChars 10 ds init < (init + 1) * 10 ^ ds.length := by
  induction ds generalizing init with
  | nil => simp
  | cons c ds ih =>
    obtain ⟨digit, digits⟩ := List.forall_mem_cons.1 digits
    have range : '0'.toNat ≤ c.toNat ∧ c.toNat ≤ '9'.toNat := by
      simpa [isDigit, Char.le_def, UInt32.le_iff_toNat_le] using digit
    have nine : '9'.toNat = '0'.toNat + 9 := rfl
    rw [Nat.ofDigitChars_cons, List.length_cons]
    calc
      Nat.ofDigitChars 10 ds (10 * init + (c.toNat - '0'.toNat))
        < (10 * init + (c.toNat - '0'.toNat) + 1) * 10 ^ ds.length := ih digits _
      _ ≤ (10 * (init + 1)) * 10 ^ ds.length := Nat.mul_le_mul_right _ (by omega)
      _ = (init + 1) * 10 ^ (ds.length + 1) := by rw [Nat.pow_succ]; ring

theorem ofDigitChars_lt_tenTo {ds : List Char} (digits : ∀ c ∈ ds, isDigit c = true) {n : Nat} (short : ds.length ≤ n) :
    Nat.ofDigitChars 10 ds 0 < tenTo n :=
  calc
    Nat.ofDigitChars 10 ds 0 < (0 + 1) * 10 ^ ds.length := ofDigitChars_lt digits 0
    _ = 10 ^ ds.length := by rw [Nat.zero_add, Nat.one_mul]
    _ ≤ 10 ^ n := Nat.pow_le_pow_right (by decide) short

/-- The number of a row of digits that is not too long can be written. -/
theorem fits_ofDigitChars {ds : List Char} (digits : ∀ c ∈ ds, isDigit c = true)
    (short : ds.length ≤ Integer.digitLimit) (negative : Bool) :
    Integer.fits (if negative then -(Nat.ofDigitChars 10 ds 0 : Int) else Nat.ofDigitChars 10 ds 0) = true := by
  have small := ofDigitChars_lt_tenTo digits short
  cases negative with
  | false => simpa [Integer.fits] using small
  | true => simpa [Integer.fits] using small

namespace Json

variable {s t : List Char} {fuel : Nat}

/-- Where the stop is about a row of digits, the text has one. -/
def Arises (s : List Char) (stop : Stop) : Prop := ∀ n, stop = .tooLong n → HasRun s n

/-- What is read is known to be `P`, and is in front of an end of the text; what stops the reading arises from it. -/
abbrev Scans {α : Type} (s : List Char) (P : α → Prop) : Reading α → Prop :=
  Ends (Arises s) fun r => P r.1 ∧ r.2 <:+ s

theorem arises_complain (complaint : Complaint) (left : Nat) : Arises s (.complain complaint left) := by
  intro n h
  cases h

theorem Arises.of_suffix {stop : Stop} (h : Arises s stop) (inside : s <:+ t) : Arises t stop :=
  fun n e => (h n e).of_suffix inside

theorem skip_suffix (s : List Char) : skip s <:+ s := List.dropWhile_suffix _

/-! ## Scalars and texts -/

theorem numberFrom_ends {ds : List Char} (digits : ∀ c ∈ ds, isDigit c = true) (negative : Bool) (rest : List Char) :
    Scans (ds ++ rest) (fun v : Value => v.isShort = true) (numberFrom negative ds rest) := by
  refine .of_forall ?_ ?_
  · rintro ⟨v, after⟩ h
    have behind := (passes_numberFrom h).suffix
    refine ⟨?_, behind.trans (List.suffix_append _ _)⟩
    simp only [numberFrom] at h
    split at h
    · split at h
      · cases h
      · next short =>
        cases h
        exact fits_ofDigitChars digits (Nat.le_of_not_lt short) negative
    · cases h
      rfl
  · intro stop h
    simp only [numberFrom] at h
    split at h
    · split at h
      · next long =>
        cases h
        rintro n ⟨⟩
        exact ⟨long, ds, (List.prefix_append _ _).isInfix, rfl, digits⟩
      · cases h
    · cases h

theorem readScalar_ends (s : List Char) : Scans s (fun v : Value => v.isShort = true) (readScalar s) := by
  refine .of_forall ?_ ?_
  · rintro ⟨v, rest⟩ h
    refine ⟨?_, (passes_readScalar h).suffix⟩
    rcases readScalar_eq_ok h with ⟨word, known, -⟩ | ⟨negative, ds, after, -, whole, number⟩
    · simp only [literals, List.mem_cons, Prod.mk.injEq, List.not_mem_nil, or_false] at known
      rcases known with ⟨-, rfl⟩ | ⟨-, rfl⟩ | ⟨-, rfl⟩ | ⟨-, rfl⟩ | ⟨-, rfl⟩ | ⟨-, rfl⟩ <;> rfl
    · have ends := numberFrom_ends whole.whole.1 negative after
      rw [number] at ends
      exact ends.result.1
  · intro stop h
    have number {negative : Bool} {s' : List Char} (h : readUnsigned? negative s' = some (.error stop))
        (inside : s' <:+ s) : Arises s stop := by
      obtain ⟨ds, rest, rfl, whole, e⟩ := readUnsigned?_eq_some h
      have ends := numberFrom_ends whole.whole.1 negative rest
      rw [← e] at ends
      exact ends.fault.of_suffix inside
    unfold readScalar at h
    rcases Option.getD_eq_iff.1 h with h | ⟨-, h⟩
    · split at h
      case h_7 => exact number h (List.suffix_cons _ _)
      case h_8 => exact number h List.suffix_rfl
      all_goals cases h
    · cases h
      exact arises_complain _ _

/-- The readers of texts do not look at numbers. -/
theorem readUnits_ends (s : List Char) :
    Ends (fun stop? => ∀ n, stop? ≠ some (.tooLong n)) (fun _ => True) (readUnits s) := by
  fun_induction readUnits s with
  | case1 => exact .error (by simp)
  | case2 => exact .ok trivial
  | case3 => exact .error (by simp)
  | case4 => exact .error (by simp)
  | case5 => exact .error (by simp)
  | case6 _ _ _ _ _ _ _ _ ih => exact ih.map fun _ _ => trivial
  | case7 => exact .error (by simp)
  | case8 _ _ _ _ _ _ ih => exact ih.map fun _ _ => trivial
  | case9 => exact .error (by simp)
  | case10 => exact .error (by simp)
  | case11 _ _ _ _ _ ih => exact ih.map fun _ _ => trivial

theorem readText_ends (s : List Char) : Scans s (fun _ => True) (readText s) := by
  refine .of_forall (fun r h => ⟨trivial, ?_⟩) fun stop h n e => ?_
  · obtain ⟨t, rest⟩ := r
    obtain ⟨units, read, -⟩ := readText_eq_ok h
    exact readUnits_induction (P := fun s _ => rest <:+ s) (List.suffix_cons _ _)
      (fun w _ s _ _ _ inside => inside.trans (List.suffix_append w s)) read
  · subst e
    have units := readUnits_ends s
    unfold readText at h
    split at h
    · cases h
    · next stop? e =>
      rw [e] at units
      cases stop? with
      | none => cases h
      | some stop =>
        cases h
        exact absurd rfl (units.fault n)

/-! ## Values -/

/-- A reader of what follows in the text, as part of a reader of the text. -/
theorem Scans.inner {α β : Type} {P : α → Prop} {Q : β → Prop} {x : Except Stop (α × List Char)}
    {f : α × List Char → Except Stop (β × List Char)} (first : Scans t P x) (inside : t <:+ s)
    (next : ∀ a rest, P a → rest <:+ s → Scans s Q (f (a, rest))) :
    Scans s Q (x >>= f : Except Stop (β × List Char)) := by
  refine (first.mono (fun stop h => h.of_suffix inside) fun _ h => h).bind ?_
  rintro ⟨a, rest⟩ ⟨ha, behind⟩
  exact next a rest ha (behind.trans inside)

/-- What is read of what follows in the text is put into another value. -/
theorem Scans.mapInner {α β : Type} {P : α → Prop} {Q : β → Prop} {x : Except Stop (α × List Char)} {f : α → β}
    (first : Scans t P x) (inside : t <:+ s) (result : ∀ a, P a → Q (f a)) :
    Scans s Q (x.map fun r => (f r.1, r.2)) :=
  (first.mono (fun _ h => h.of_suffix inside) fun _ h => h).map fun r h => ⟨result r.1 h.1, h.2.trans inside⟩

theorem suffix_of_skip {c : Char} {rest after : List Char} (inside : rest <:+ s) (h : skip rest = c :: after) :
    after <:+ s :=
  ((List.suffix_cons c after).trans (h ▸ skip_suffix rest)).trans inside

/-- No integer in the entry has too many digits. -/
def ShortEntry (e : Value × Value) : Prop := e.1.isShort = true ∧ e.2.isShort = true

theorem shortEntry_insert {k v : Value} {es : List (Value × Value)} (key : k.isShort = true) (value : v.isShort = true)
    (h : ∀ e ∈ es, ShortEntry e) : ∀ e ∈ Value.insert k v es, ShortEntry e := by
  induction es with
  | nil => exact List.forall_mem_singleton.2 ⟨key, value⟩
  | cons e es ih =>
    obtain ⟨here, others⟩ := List.forall_mem_cons.1 h
    unfold Value.insert
    split
    · exact List.forall_mem_cons.2 ⟨⟨here.1, value⟩, others⟩
    · exact List.forall_mem_cons.2 ⟨here, ih others⟩

theorem shortEntry_entriesOf {es : List (Value × Value)} (h : ∀ e ∈ es, ShortEntry e) :
    ∀ e ∈ Value.entriesOf es, ShortEntry e := by
  have fold : ∀ before : List (Value × Value), (∀ e ∈ before, ShortEntry e) →
      ∀ e ∈ es.foldl (fun entries p => Value.insert p.1 p.2 entries) before, ShortEntry e := by
    induction es with
    | nil => exact fun before hb => hb
    | cons e es ih =>
      intro before hb
      obtain ⟨here, others⟩ := List.forall_mem_cons.1 h
      exact ih others _ (shortEntry_insert here.1 here.2 hb)
  exact fold [] (by simp)

/-- What the three readers read is short, and they are stopped by nothing but complaints and rows of digits. -/
structure Scanned (fuel : Nat) : Prop where
  value (s : List Char) : Scans s (fun v : Value => v.isShort = true) (readValue fuel s)
  entries (s : List Char) : Scans s (fun es => ∀ e ∈ es, ShortEntry e) (readEntries fuel s)
  items (s : List Char) : Scans s (fun vs => ∀ v ∈ vs, v.isShort = true) (readItems fuel s)

namespace Scanned

variable {fuel : Nat}

theorem readValue_succ (inner : Scanned fuel) (s : List Char) :
    Scans s (fun v : Value => v.isShort = true) (readValue (fuel + 1) s) := by
  unfold readValue
  split
  · next rest =>
    refine (readText_ends rest).mapInner (f := fun u => Value.str (String.ofList u)) (List.suffix_cons _ _) ?_
    exact fun _ _ => rfl
  · next rest =>
    have inside := (skip_suffix rest).trans (List.suffix_cons '{' rest)
    split
    · next after e => exact .ok ⟨rfl, suffix_of_skip (List.suffix_cons _ _) e⟩
    · refine (inner.entries _).mapInner (f := fun es => Value.ofEntries (Value.entriesOf es)) inside ?_
      exact fun es h => Value.entriesShort_iff.2 (shortEntry_entriesOf h)
  · next rest =>
    have inside := (skip_suffix rest).trans (List.suffix_cons '[' rest)
    split
    · next after e => exact .ok ⟨rfl, suffix_of_skip (List.suffix_cons _ _) e⟩
    · refine (inner.items _).mapInner (f := Value.ofList) inside ?_
      exact fun vs h => Value.allShort_iff.2 h
  · exact readScalar_ends s

theorem readEntries_succ (inner : Scanned fuel) (s : List Char) :
    Scans s (fun es => ∀ e ∈ es, ShortEntry e) (readEntries (fuel + 1) s) := by
  unfold readEntries
  split
  · next rest =>
    refine (readText_ends rest).inner (List.suffix_cons _ _) fun name s₁ _ inside => ?_
    dsimp only
    split
    · next s₂ colon =>
      have inside := suffix_of_skip inside colon
      refine (inner.value _).inner ((skip_suffix s₂).trans inside) fun v s₃ short inside => ?_
      dsimp only
      split
      · next s₄ brace => exact .ok ⟨List.forall_mem_singleton.2 ⟨rfl, short⟩, suffix_of_skip inside brace⟩
      · next s₄ comma =>
        have inside := suffix_of_skip inside comma
        refine (inner.entries _).inner ((skip_suffix s₄).trans inside) fun more s₅ shortMore inside => ?_
        exact .ok ⟨List.forall_mem_cons.2 ⟨⟨rfl, short⟩, shortMore⟩, inside⟩
      · exact .error (arises_complain _ _)
    · exact .error (arises_complain _ _)
  · exact .error (arises_complain _ _)

theorem readItems_succ (inner : Scanned fuel) (s : List Char) :
    Scans s (fun vs => ∀ v ∈ vs, v.isShort = true) (readItems (fuel + 1) s) := by
  unfold readItems
  refine (inner.value s).inner List.suffix_rfl fun v s₁ short inside => ?_
  dsimp only
  split
  · next s₂ bracket => exact .ok ⟨List.forall_mem_singleton.2 short, suffix_of_skip inside bracket⟩
  · next s₂ comma =>
    have inside := suffix_of_skip inside comma
    refine (inner.items _).inner ((skip_suffix s₂).trans inside) fun more s₃ shortMore inside => ?_
    exact .ok ⟨List.forall_mem_cons.2 ⟨short, shortMore⟩, inside⟩
  · exact .error (arises_complain _ _)

end Scanned

theorem scanned (fuel : Nat) : Scanned fuel := by
  induction fuel with
  | zero => constructor <;> exact fun s => .error (arises_complain _ _)
  | succ fuel inner => exact ⟨inner.readValue_succ, inner.readEntries_succ, inner.readItems_succ⟩

/-- A JSON text has a value without long integers, or a complaint is made, or it has a row of digits that is too
long. -/
theorem read_ends (s : List Char) :
    Ends (fun fault => ∀ n, fault = .tooLong n → HasRun s n) (fun v : Value => v.isShort = true) (read s) := by
  have whole : Ends (Arises s) (fun v : Value => v.isShort = true) (readWhole s) := by
    unfold readWhole
    split
    · exact .error (arises_complain _ _)
    · refine (((scanned _).value (skip s)).mono (fun stop h => h.of_suffix (skip_suffix s)) fun _ h => h).bind ?_
      rintro ⟨v, rest⟩ ⟨short, -⟩
      dsimp only
      split
      · exact .ok short
      · exact .error (arises_complain _ _)
  refine whole.mapError fun stop h n e => ?_
  cases stop with
  | complain complaint left => cases e
  | tooLong digits =>
    cases e
    exact h n rfl

end Json

end ZincModel
