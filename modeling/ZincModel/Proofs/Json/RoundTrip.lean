import ZincModel.Proofs.Json.Names
import ZincModel.Proofs.Json.Number
import ZincModel.Proofs.Value.Alike
import ZincModel.Proofs.Value.Writable

/-!
# Values survive JSON

A value of the kinds that JSON has is written as printable ASCII, and what is read from that is the value again
(`write_reads`), except that the entries of dictionaries are sorted and that nothing is shared (`alike_readBack`).

What a text is read as does not depend on what stands behind it, as long as that can follow a value (`Reads`);
so the texts of containers are put together from those of their parts.
-/

namespace ZincModel.Json

open Text Value

/-! ## Values that JSON has -/

/-- The value is made of what JSON has: null, truth values, integers that can be written, numbers, texts, lists,
and dictionaries with text keys. No container stands inside itself; the numbers on the path are those of the
containers around the value. -/
inductive Plain : List Nat → Value → Prop
  | null {path : List Nat} : Plain path .null
  | bool {path : List Nat} (b : Bool) : Plain path (.bool b)
  | int {path : List Nat} {n : Int} : Integer.fits n = true → Plain path (.int n)
  | float {path : List Nat} (number : Option Nat) (x : Double) : Plain path (.float number x)
  | str {path : List Nat} (s : String) : Plain path (.str s)
  | list {path : List Nat} {l : Option Label} {items : List Value} :
      isEntered l path = false → (∀ v ∈ items, Plain (enter l path) v) → Plain path (.list l items)
  | dict {path : List Nat} {l : Option Label} {entries : List (Value × Value)} :
      isEntered l path = false → IsObject entries → (∀ e ∈ entries, Plain (enter l path) e.2) →
      Plain path (.dict l entries)

mutual

/-- The value that is read where this one was written. -/
def readBack : Value → Value
  | .float _ .nan => .float (some nanNumber) .nan
  | .float _ x => .ofDouble x
  | .list _ items => .ofList (readBackAll items)
  | .tuple _ items => .ofList (readBackAll items)
  | .dict _ entries => .ofEntries (byName (readBackEntries entries))
  | v => v
termination_by structural x => x

def readBackAll : List Value → List Value
  | [] => []
  | v :: rest => readBack v :: readBackAll rest
termination_by structural x => x

def readBackEntries : List (Value × Value) → List (Value × Value)
  | [] => []
  | (k, v) :: rest => (k, readBack v) :: readBackEntries rest
termination_by structural x => x

end

theorem readBackAll_eq (items : List Value) : readBackAll items = items.map readBack := by
  induction items with
  | nil => rfl
  | cons v items ih => rw [readBackAll, ih, List.map_cons]

theorem readBackEntries_eq (entries : List (Value × Value)) :
    readBackEntries entries = entries.map fun e => (e.1, readBack e.2) := by
  induction entries with
  | nil => rfl
  | cons e entries ih => rw [readBackEntries, ih, List.map_cons]

theorem isObject_readBackEntries {entries : List (Value × Value)} (h : IsObject entries) :
    IsObject (readBackEntries entries) := by
  apply h.of_keys_eq
  rw [readBackEntries_eq, List.map_map]
  rfl

/-- What is read back is what was written, but for sharing and for the order of entries. -/
theorem alike_readBack {path : List Nat} {v : Value} (h : Plain path v) : Alike v (readBack v) := by
  induction h with
  | float number x => cases x <;> exact .float _ _ _
  | list _ _ ih =>
    rw [readBack, readBackAll_eq]
    exact Alike.list_map _ _ ih
  | dict _ object _ ih =>
    have text : ∀ e ∈ readBackEntries _, ∃ k, e.1 = .str k := (isObject_readBackEntries object).text
    rw [readBack]
    apply Alike.dict_map _ _ ih
    rw [← readBackEntries_eq]
    exact (byName_perm text).symm
  | _ => exact .refl _

/-! ## Texts of values -/

/-- Something is there that is neither blank nor the end of a list. -/
def Begins (w : List Char) : Prop := ∃ c s, w = c :: s ∧ isBlank c = false ∧ c ≠ ']'

/-- The text is read as the value, whatever stands behind it, and is printable ASCII. -/
structure Reads (w : List Char) (v : Value) : Prop where
  printable : ∀ c ∈ w, IsPrintable c
  first : Begins w
  read : ∀ fuel rest, 2 * w.length ≤ fuel → Closes rest → readValue fuel (w ++ rest) = .ok (v, rest)

/-- The text of a scalar. -/
theorem Reads.scalar {w : List Char} {v : Value} (printable : ∀ c ∈ w, IsPrintable c)
    (first : ∃ c s, w = c :: s ∧ isBlank c = false ∧ c ∉ ['"', '{', '[', ']'])
    (read : ∀ rest, Closes rest → readScalar (w ++ rest) = .ok (v, rest)) : Reads w v := by
  obtain ⟨c, s, rfl, blank, apart⟩ := first
  simp only [List.mem_cons, List.not_mem_nil, or_false, not_or] at apart
  refine ⟨printable, ⟨c, s, rfl, blank, apart.2.2.2⟩, fun fuel rest bound closes => ?_⟩
  obtain ⟨fuel, rfl⟩ : ∃ n, fuel = n + 1 := ⟨fuel - 1, by simp at bound; omega⟩
  rw [← read rest closes, List.cons_append, readValue]
  all_goals
    intro _ e
    obtain ⟨rfl, -⟩ := List.cons.inj e
    simp at apart

theorem Reads.null : Reads "null".toList .null :=
  .scalar (isPrintable_of_all (by decide)) ⟨'n', _, rfl, rfl, by decide⟩ fun _ _ => rfl

theorem Reads.bool (b : Bool) : Reads (if b then "true".toList else "false".toList) (.bool b) := by
  cases b with
  | true => exact .scalar (isPrintable_of_all (by decide)) ⟨'t', _, rfl, rfl, by decide⟩ fun _ _ => rfl
  | false => exact .scalar (isPrintable_of_all (by decide)) ⟨'f', _, rfl, rfl, by decide⟩ fun _ _ => rfl

theorem Reads.str (s : String) : Reads (asciiText s.toList) (.str s) := by
  refine ⟨isPrintable_asciiText _, ⟨'"', _, rfl, rfl, by decide⟩, fun fuel rest bound closes => ?_⟩
  obtain ⟨fuel, rfl⟩ : ∃ n, fuel = n + 1 := ⟨fuel - 1, by simp [asciiText] at bound; omega⟩
  have body : asciiText s.toList ++ rest = '"' :: (s.toList.flatMap asciiChar ++ '"' :: rest) := by
    simp [asciiText]
  rw [body, readValue, readText_asciiText]
  simp [Except.map]

/-! ## Scalars -/

theorem isPrintable_digit {c : Char} (h : Text.isDigit c = true) : IsPrintable c := by
  have range : '0'.toNat ≤ c.toNat ∧ c.toNat ≤ '9'.toNat := by
    simpa [Text.isDigit, Char.le_def, UInt32.le_iff_toNat_le] using h
  have zero : '0'.toNat = 48 := rfl
  have nine : '9'.toNat = 57 := rfl
  exact ⟨by omega, by omega⟩

theorem isPrintable_signed {negative : Bool} {s : List Char} (h : ∀ c ∈ s, IsPrintable c) :
    ∀ c ∈ signed negative s, IsPrintable c := by
  cases negative with
  | false => exact h
  | true => exact List.forall_mem_cons.2 ⟨by decide, h⟩

theorem first_signed {ds : List Char} (whole : IsWhole ds) (negative : Bool) (s : List Char) :
    ∃ c rest, signed negative (ds ++ s) = c :: rest ∧ isBlank c = false ∧ c ∉ ['"', '{', '[', ']'] := by
  cases negative with
  | true => exact ⟨'-', _, rfl, rfl, by decide⟩
  | false =>
    obtain ⟨c, cs, rfl⟩ : ∃ c cs, ds = c :: cs := by
      rcases whole.2 with rfl | ⟨c, cs, rfl, -⟩ <;> exact ⟨_, _, rfl⟩
    have digit := whole.1 c List.mem_cons_self
    refine ⟨c, cs ++ s, rfl, ?_, fun hc => ?_⟩
    · have apart : c ≠ ' ' ∧ c ≠ '\t' ∧ c ≠ '\n' ∧ c ≠ '\r' := by
        refine ⟨?_, ?_, ?_, ?_⟩ <;> (rintro rfl; cases digit)
      simp [isBlank, apart]
    · simp only [List.mem_cons, List.not_mem_nil, or_false] at hc
      rcases hc with rfl | rfl | rfl | rfl <;> cases digit

theorem Reads.int {n : Int} (fits : Integer.fits n = true) : Reads (Integer.numeral n) (.int n) := by
  have whole := isWhole_toDigits n.natAbs
  refine Reads.scalar ?_ ?_ fun rest closes => readScalar_numeral fits closes
  · rw [numeral_eq]
    exact isPrintable_signed fun c hc => isPrintable_digit (whole.1 c hc)
  · have first := first_signed whole (n < 0) []
    rwa [List.append_nil, ← numeral_eq] at first

theorem isPrintable_exponentText (e : Int) : ∀ c ∈ Double.Numeral.exponentText e, IsPrintable c := by
  have digits : ∀ c ∈ Nat.toDigits 10 e.natAbs, IsPrintable c :=
    fun c hc => isPrintable_digit (Double.isDigit_toDigits _ c hc)
  unfold Double.Numeral.exponentText
  refine List.forall_mem_cons.2 ⟨by decide, List.forall_mem_cons.2 ⟨by split <;> decide, ?_⟩⟩
  split
  · exact List.forall_mem_cons.2 ⟨by decide, digits⟩
  · exact digits

theorem isPrintable_text {x : Double.Numeral} (proper : x.Proper) : ∀ c ∈ x.text, IsPrintable c := by
  intro c hc
  rcases List.mem_append.1 hc with hc | hc
  · rcases List.mem_append.1 hc with hc | hc
    · exact isPrintable_digit (proper.whole c hc)
    · split at hc
      · cases hc
      · rcases List.mem_cons.1 hc with rfl | hc
        · decide
        · exact isPrintable_digit (proper.fraction c hc)
  · cases e : x.exponent with
    | none => rw [e] at hc; cases hc
    | some n => rw [e] at hc; exact isPrintable_exponentText n c hc

theorem Reads.float (n : Option Nat) (x : Double) : Reads (number x) (readBack (.float n x)) := by
  cases x with
  | nan =>
    exact Reads.scalar (isPrintable_of_all (by decide)) ⟨'N', _, rfl, rfl, by decide⟩ fun rest _ => rfl
  | infinite negative =>
    cases negative with
    | false =>
      exact Reads.scalar (isPrintable_of_all (by decide)) ⟨'I', _, rfl, rfl, by decide⟩ fun rest _ => rfl
    | true =>
      exact Reads.scalar (isPrintable_of_all (by decide)) ⟨'-', _, rfl, rfl, by decide⟩ fun rest _ => rfl
  | finite negative code =>
    obtain ⟨x, spelled, proper, -⟩ := exists_numeral negative code
    refine Reads.scalar ?_ ?_ fun rest closes => readScalar_finite negative code closes
    · change ∀ c ∈ Double.text (.finite negative code), IsPrintable c
      rw [spelled]
      exact isPrintable_signed (isPrintable_text proper)
    · change ∃ c s, Double.text (.finite negative code) = c :: s ∧ _
      rw [spelled, Double.Numeral.text, List.append_assoc]
      exact first_signed (isWhole_numeral proper) negative _

/-! ## Containers -/

/-- The parts of a container, as they are written one after the other. -/
def joined (parts : List (List Char)) : List Char := join [',', ' '] parts

theorem joined_cons (w w' : List Char) (ws : List (List Char)) (rest : List Char) :
    joined (w :: w' :: ws) ++ rest = w ++ ',' :: ' ' :: (joined (w' :: ws) ++ rest) := by
  simp [joined, join]

theorem Begins.append {w : List Char} (h : Begins w) (rest : List Char) : Begins (w ++ rest) := by
  obtain ⟨c, s, rfl, blank, apart⟩ := h
  exact ⟨c, s ++ rest, rfl, blank, apart⟩

theorem Begins.joined {w : List Char} (h : Begins w) (ws : List (List Char)) (rest : List Char) :
    Begins (joined (w :: ws) ++ rest) := by
  cases ws with
  | nil => exact h.append rest
  | cons w' ws => rw [joined_cons]; exact h.append _

theorem Begins.skip {w : List Char} (h : Begins w) : skip w = w := by
  obtain ⟨c, s, rfl, blank, -⟩ := h
  simp [Json.skip, blank]

theorem skip_blank (s : List Char) : skip (' ' :: s) = skip s := rfl

/-- Lists of values, from the first item on. -/
theorem readItems_joined {w : List Char} {v : Value} {ws : List (List Char)} {vs : List Value} (first : Reads w v)
    (others : List.Forall₂ Reads ws vs) (fuel : Nat) (rest : List Char)
    (bound : 2 * (joined (w :: ws)).length + 1 ≤ fuel) :
    readItems fuel (joined (w :: ws) ++ ']' :: rest) = .ok (v :: vs, rest) := by
  induction others generalizing w v fuel with
  | nil =>
    obtain ⟨fuel, rfl⟩ : ∃ n, fuel = n + 1 := ⟨fuel - 1, by omega⟩
    have value := first.read fuel (']' :: rest) (by simp [joined, join] at bound; omega)
      (.cons (Or.inr (Or.inl rfl)) rest)
    rw [readItems, show joined [w] = w from rfl, value]
    rfl
  | @cons w' v' ws vs second _ ih =>
    obtain ⟨fuel, rfl⟩ : ∃ n, fuel = n + 1 := ⟨fuel - 1, by omega⟩
    have length : (joined (w :: w' :: ws)).length = w.length + 2 + (joined (w' :: ws)).length := by
      simp [joined, join]
      omega
    have value := first.read fuel (',' :: ' ' :: (joined (w' :: ws) ++ ']' :: rest)) (by omega)
      (.cons (Or.inl rfl) _)
    have items := ih second fuel (by omega)
    have start : Json.skip (' ' :: (joined (w' :: ws) ++ ']' :: rest)) = joined (w' :: ws) ++ ']' :: rest :=
      (skip_blank _).trans (Begins.joined second.first ws _).skip
    rw [joined_cons, readItems, value]
    change (readItems fuel (Json.skip (' ' :: (joined (w' :: ws) ++ ']' :: rest))) >>= fun r =>
      Except.ok (v :: r.1, r.2)) = _
    rw [start, items]
    rfl

theorem isPrintable_joined {ws : List (List Char)} (h : ∀ w ∈ ws, ∀ c ∈ w, IsPrintable c) :
    ∀ c ∈ joined ws, IsPrintable c := by
  induction ws with
  | nil => intro c hc; cases hc
  | cons w ws ih =>
    obtain ⟨first, others⟩ := List.forall_mem_cons.1 h
    cases ws with
    | nil => exact first
    | cons w' ws =>
      intro c hc
      rcases List.mem_append.1 hc with hc | hc
      · rcases List.mem_append.1 hc with hc | hc
        · exact first c hc
        · exact isPrintable_of_all (w := [',', ' ']) (by decide) c hc
      · exact ih others c hc

/-- The text of a container between its brackets. -/
theorem isPrintable_brackets {opening closing : Char} {s : List Char} (ho : IsPrintable opening)
    (hc : IsPrintable closing) (h : ∀ c ∈ s, IsPrintable c) :
    ∀ c ∈ opening :: s ++ [closing], IsPrintable c :=
  List.forall_mem_append.2 ⟨List.forall_mem_cons.2 ⟨ho, h⟩, by simpa using hc⟩

theorem Reads.list {ws : List (List Char)} {vs : List Value} (h : List.Forall₂ Reads ws vs) :
    Reads ('[' :: joined ws ++ [']']) (.ofList vs) := by
  have printable : ∀ w ∈ ws, ∀ c ∈ w, IsPrintable c := by
    induction h with
    | nil => simp
    | cons first _ ih => exact List.forall_mem_cons.2 ⟨first.printable, ih⟩
  refine ⟨isPrintable_brackets (by decide) (by decide) (isPrintable_joined printable),
    ⟨'[', _, rfl, rfl, by decide⟩, fun fuel rest bound closes => ?_⟩
  obtain ⟨fuel, rfl⟩ : ∃ n, fuel = n + 1 := ⟨fuel - 1, by simp at bound; omega⟩
  cases h with
  | nil => rfl
  | @cons w v ws vs first others =>
    have begins : Begins (joined (w :: ws) ++ ']' :: rest) := first.first.joined ws _
    have items := readItems_joined first others fuel rest (by simp at bound; omega)
    have spelled : '[' :: joined (w :: ws) ++ [']'] ++ rest = '[' :: (joined (w :: ws) ++ ']' :: rest) := by simp
    rw [spelled, readValue, begins.skip]
    obtain ⟨c, s, e, -, apart⟩ := begins
    rw [e] at items ⊢
    split
    · next e => exact absurd (List.cons.inj e).1 apart
    · rw [items]
      rfl

/-- The text of an entry is its name, a colon and the text of its value. -/
def ReadsEntry (t : List Char) (e : Value × Value) : Prop :=
  ∃ k w, e.1 = .str k ∧ t = asciiText k.toList ++ ':' :: ' ' :: w ∧ Reads w e.2

theorem ReadsEntry.begins {t : List Char} {e : Value × Value} (h : ReadsEntry t e) :
    ∃ s, t = '"' :: s := by
  obtain ⟨k, w, -, rfl, -⟩ := h
  exact ⟨_, rfl⟩

theorem ReadsEntry.printable {t : List Char} {e : Value × Value} (h : ReadsEntry t e) :
    ∀ c ∈ t, IsPrintable c := by
  obtain ⟨k, w, -, rfl, value⟩ := h
  exact List.forall_mem_append.2 ⟨isPrintable_asciiText _,
    List.forall_mem_cons.2 ⟨by decide, List.forall_mem_cons.2 ⟨by decide, value.printable⟩⟩⟩

/-- One entry, with what stands behind its value. -/
theorem readEntries_entry {t : List Char} {e : Value × Value} (h : ReadsEntry t e) (fuel : Nat) (rest : List Char)
    (bound : 2 * t.length ≤ fuel) (closes : Closes rest) :
    readEntries (fuel + 1) (t ++ rest) =
      match skip rest with
      | '}' :: s => .ok ([e], s)
      | ',' :: s => readEntries fuel (skip s) >>= fun r => .ok (e :: r.1, r.2)
      | s => .error (.complain .comma s.length) := by
  obtain ⟨k, w, hk, rfl, value⟩ := h
  obtain ⟨key, v⟩ := e
  cases hk
  have spelled : asciiText k.toList ++ ':' :: ' ' :: w ++ rest =
      '"' :: (k.toList.flatMap asciiChar ++ '"' :: ':' :: ' ' :: (w ++ rest)) := by simp [asciiText]
  have read := value.read fuel rest (by simp at bound; omega) closes
  rw [spelled, readEntries, readText_asciiText]
  have colon : skip (':' :: ' ' :: (w ++ rest)) = ':' :: ' ' :: (w ++ rest) := rfl
  have start : skip (' ' :: (w ++ rest)) = w ++ rest := (skip_blank _).trans (value.first.append rest).skip
  simp only [Except.ok_bind, colon, start, read, String.ofList_toList]
  rfl

/-- Entries of a dictionary, from the first name on. -/
theorem readEntries_joined {t : List Char} {e : Value × Value} {ts : List (List Char)} {es : List (Value × Value)}
    (first : ReadsEntry t e) (others : List.Forall₂ ReadsEntry ts es) (fuel : Nat) (rest : List Char)
    (bound : 2 * (joined (t :: ts)).length + 1 ≤ fuel) :
    readEntries fuel (joined (t :: ts) ++ '}' :: rest) = .ok (e :: es, rest) := by
  obtain ⟨fuel, rfl⟩ : ∃ n, fuel = n + 1 := ⟨fuel - 1, by omega⟩
  induction others generalizing t e fuel with
  | nil =>
    have entry := readEntries_entry first fuel ('}' :: rest) (by simp [joined, join] at bound; omega)
      (.cons (Or.inr (Or.inr rfl)) rest)
    exact entry
  | @cons t' e' ts es second _ ih =>
    have length : (joined (t :: t' :: ts)).length = t.length + 2 + (joined (t' :: ts)).length := by
      simp [joined, join]
      omega
    obtain ⟨s, start⟩ := second.begins
    obtain ⟨fuel, rfl⟩ : ∃ n, fuel = n + 1 := ⟨fuel - 1, by omega⟩
    have entry := readEntries_entry first (fuel + 1) (',' :: ' ' :: (joined (t' :: ts) ++ '}' :: rest)) (by omega)
      (.cons (Or.inl rfl) _)
    have entries := ih second fuel (by omega)
    have begins : Begins t' := ⟨'"', s, start, rfl, by decide⟩
    have skipped : skip (' ' :: (joined (t' :: ts) ++ '}' :: rest)) = joined (t' :: ts) ++ '}' :: rest :=
      (skip_blank _).trans (begins.joined ts _).skip
    rw [joined_cons, entry]
    change (readEntries (fuel + 1) (skip (' ' :: (joined (t' :: ts) ++ '}' :: rest))) >>= fun r =>
      Except.ok (e :: r.1, r.2)) = _
    rw [skipped, entries]
    rfl

theorem Reads.dict {ts : List (List Char)} {es : List (Value × Value)} (h : List.Forall₂ ReadsEntry ts es)
    (object : IsObject es) : Reads ('{' :: joined ts ++ ['}']) (.ofEntries es) := by
  have printable : ∀ t ∈ ts, ∀ c ∈ t, IsPrintable c := by
    clear object
    induction h with
    | nil => simp
    | cons first _ ih => exact List.forall_mem_cons.2 ⟨first.printable, ih⟩
  refine ⟨isPrintable_brackets (by decide) (by decide) (isPrintable_joined printable),
    ⟨'{', _, rfl, rfl, by decide⟩, fun fuel rest bound closes => ?_⟩
  obtain ⟨fuel, rfl⟩ : ∃ n, fuel = n + 1 := ⟨fuel - 1, by simp at bound; omega⟩
  cases h with
  | nil => rfl
  | @cons t e ts es first others =>
    obtain ⟨s, start⟩ := first.begins
    have begins : Begins t := ⟨'"', s, start, rfl, by decide⟩
    have entries := readEntries_joined first others fuel rest (by simp at bound; omega)
    have spelled : '{' :: joined (t :: ts) ++ ['}'] ++ rest = '{' :: (joined (t :: ts) ++ '}' :: rest) := by simp
    rw [spelled, readValue, (begins.joined ts _).skip]
    have quoted : ∃ s', joined (t :: ts) ++ '}' :: rest = '"' :: s' := by
      cases ts with
      | nil => exact ⟨_, by rw [start]; rfl⟩
      | cons t' ts => exact ⟨_, by rw [joined_cons, start]; rfl⟩
    obtain ⟨s', quoted⟩ := quoted
    rw [quoted] at entries ⊢
    change (readEntries fuel ('"' :: s')).map _ = _
    rw [entries, Except.map, entriesOf_eq_self object]

/-! ## Writing -/

/-- The texts of parts that can all be written. -/
theorem allWritten_map (ws : List (List Char)) : allWritten (ws.map Except.ok) = .ok ws := by
  induction ws with
  | nil => rfl
  | cons w ws ih => rw [List.map_cons, allWritten, ih]; rfl

section

variable {sorted : Bool} {path : List Nat} {f : Value → Value}

theorem writeItems_reads {items : List Value}
    (h : ∀ v ∈ items, ∃ w, writeIn sorted path v = .ok w ∧ Reads w (f v)) :
    ∃ ws, writeItems sorted path items = ws.map Except.ok ∧ List.Forall₂ Reads ws (items.map f) := by
  induction items with
  | nil => exact ⟨[], rfl, .nil⟩
  | cons v items ih =>
    obtain ⟨⟨w, written, reads⟩, others⟩ := List.forall_mem_cons.1 h
    obtain ⟨ws, all, rest⟩ := ih others
    exact ⟨w :: ws, by rw [writeItems, written, all, List.map_cons], .cons reads rest⟩

/-- The entries with their texts and with the values that are read for them, side by side, so that they can be
sorted together. -/
theorem writeEntries_reads {entries : List (Value × Value)} (object : IsObject entries)
    (h : ∀ e ∈ entries, ∃ w, writeIn sorted path e.2 = .ok w ∧ Reads w (f e.2)) :
    ∃ rows : List (Value × List Char × Value),
      writeEntries sorted path entries = rows.map (fun r => (r.1, Except.ok r.2.1)) ∧
      entries.map (fun e => (e.1, f e.2)) = rows.map (fun r => (r.1, r.2.2)) ∧
      ∀ r ∈ rows, ReadsEntry r.2.1 (r.1, r.2.2) := by
  induction entries with
  | nil => exact ⟨[], rfl, rfl, by simp⟩
  | cons e entries ih =>
    obtain ⟨⟨w, written, reads⟩, others⟩ := List.forall_mem_cons.1 h
    obtain ⟨⟨k, hk⟩, -, object⟩ := IsObject.cons_iff.1 object
    obtain ⟨rows, all, values, entries⟩ := ih object others
    obtain ⟨key, v⟩ := e
    cases hk
    refine ⟨(.str k, asciiText k.toList ++ ':' :: ' ' :: w, f v) :: rows, ?_, ?_,
      List.forall_mem_cons.2 ⟨⟨k, w, rfl, rfl, reads⟩, entries⟩⟩
    · rw [writeEntries, written, all]
      rfl
    · rw [List.map_cons, values]
      rfl

theorem write_list_reads {l : Option Label} {items : List Value} (free : isEntered l path = false)
    (h : ∀ v ∈ items, ∃ w, writeIn sorted (enter l path) v = .ok w ∧ Reads w (f v)) :
    ∃ w, writeIn sorted path (.list l items) = .ok w ∧ Reads w (.ofList (items.map f)) := by
  obtain ⟨ws, written, reads⟩ := writeItems_reads h
  refine ⟨'[' :: joined ws ++ [']'], ?_, .list reads⟩
  rw [writeIn, free, written, allWritten_map]
  rfl

end

/-- Rows of entries are sorted together with what was made of them. -/
theorem write_dict_reads {path : List Nat} {l : Option Label} {entries : List (Value × Value)}
    (free : isEntered l path = false) (object : IsObject entries)
    (h : ∀ e ∈ entries, ∃ w, writeIn true (enter l path) e.2 = .ok w ∧ Reads w (readBack e.2)) :
    ∃ w, writeIn true path (.dict l entries) = .ok w ∧ Reads w (readBack (.dict l entries)) := by
  obtain ⟨rows, written, values, entry⟩ := writeEntries_reads object h
  rw [← readBackEntries_eq] at values
  have text : ∀ r ∈ rows, ∃ k, r.1 = .str k := by
    intro r hr
    obtain ⟨k, _, hk, -⟩ := entry r hr
    exact ⟨k, hk⟩
  have texts : ∀ r ∈ rows.map (fun r => (r.1, (Except.ok r.2.1 : Written))), ∃ k, r.1 = .str k := by
    intro r hr
    obtain ⟨r', hr', rfl⟩ := List.mem_map.1 hr
    exact text r' hr'
  have object' := isObject_readBackEntries object
  have arranged : byName (readBackEntries entries) = (byName rows).map fun r => (r.1, r.2.2) := by
    rw [values]
    exact byName_map text Prod.snd
  refine ⟨'{' :: joined ((byName rows).map fun r => r.2.1) ++ ['}'], ?_, ?_⟩
  · have sorted : sortEntries (rows.map fun r => (r.1, (Except.ok r.2.1 : Written))) =
        .ok ((byName rows).map fun r => (r.1, Except.ok r.2.1)) := by
      rw [sortEntries_eq texts]
      exact congrArg Except.ok (byName_map text fun p => Except.ok p.1)
    have parts : ((byName rows).map fun r => (r.1, (Except.ok r.2.1 : Written))).map (·.2) =
        ((byName rows).map fun r => r.2.1).map Except.ok := by
      rw [List.map_map, List.map_map]
      rfl
    simp only [writeIn, free, Bool.false_eq_true, if_false, if_true, written, sorted, parts, allWritten_map]
    rfl
  · rw [readBack, arranged]
    apply Reads.dict _ (arranged ▸ object'.perm (byName_perm object'.text).symm)
    rw [List.forall₂_map_left_iff, List.forall₂_map_right_iff, List.forall₂_same]
    intro r hr
    exact entry r ((byName_perm text).mem_iff.1 hr)

/-- A value that JSON has is written, and its text is read as the value again. -/
theorem write_reads {path : List Nat} {v : Value} (h : Plain path v) :
    ∃ w, writeIn true path v = .ok w ∧ Reads w (readBack v) := by
  induction h with
  | null => exact ⟨_, rfl, .null⟩
  | bool b => exact ⟨_, rfl, .bool b⟩
  | int fits => exact ⟨_, Integer.text_eq fits, .int fits⟩
  | float n x => exact ⟨_, rfl, .float n x⟩
  | str s => exact ⟨_, rfl, .str s⟩
  | list free _ ih =>
    rw [readBack, readBackAll_eq]
    exact write_list_reads free ih
  | dict free object _ ih => exact write_dict_reads free object ih

/-- The text of a value on its own. -/
theorem Reads.whole {w : List Char} {v : Value} (h : Reads w v) : Json.read w = .ok v := by
  have value := h.read (2 * w.length + 2) [] (by omega) .nil
  have start : skip w = w := h.first.skip
  have ascii : w.head? ≠ some '\uFEFF' := fun e => by
    have := (h.printable _ (List.mem_of_mem_head? e)).2
    simp at this
  rw [List.append_nil] at value
  simp only [Json.read, readWhole, if_neg ascii, start, value]
  rfl

/-- A value that JSON has survives being written, in printable ASCII, and read. -/
theorem read_write {v : Value} (h : Plain [] v) :
    ∃ w, write true v = .ok w ∧ (∀ c ∈ w, IsPrintable c) ∧ read w = .ok (readBack v) := by
  obtain ⟨w, written, reads⟩ := write_reads h
  exact ⟨w, written, reads.printable, reads.whole⟩

/-! ## Parts of what is written -/

theorem ok_of_allWritten {ws : List Written} {parts : List (List Char)} (h : allWritten ws = .ok parts) :
    ∀ w ∈ ws, ∃ part, w = .ok part := by
  induction ws generalizing parts with
  | nil => simp
  | cons w ws ih =>
    rw [allWritten] at h
    obtain ⟨part, first, h⟩ := Except.bind_eq_ok.1 h
    obtain ⟨parts, others, -⟩ := Except.bind_eq_ok.1 h
    exact List.forall_mem_cons.2 ⟨⟨part, first⟩, ih others⟩

theorem writeItems_eq (sorted : Bool) (path : List Nat) (items : List Value) :
    writeItems sorted path items = items.map (writeIn sorted path) := by
  induction items with
  | nil => rfl
  | cons v items ih => rw [writeItems, ih, List.map_cons]

/-- If a list is written, its items can be written. -/
theorem write_item {path : List Nat} {items : List Value} {w : List Char}
    (h : writeIn true path (.ofList items) = .ok w) : ∀ v ∈ items, ∃ part, writeIn true path v = .ok part := by
  obtain ⟨parts, written, -⟩ := Except.bind_eq_ok.1 (h : allWritten (writeItems true path items) >>= _ = _)
  rw [writeItems_eq] at written
  intro v hv
  exact ok_of_allWritten written _ (List.mem_map_of_mem hv)

/-- The text of an entry. -/
def writeEntry (sorted : Bool) (path : List Nat) (e : Value × Value) : Written := do
  let name ← nameOf e.1
  let part ← writeIn sorted path e.2
  return asciiText name ++ ':' :: ' ' :: part

theorem writeEntries_eq (sorted : Bool) (path : List Nat) (es : List (Value × Value)) :
    writeEntries sorted path es = es.map fun e => (e.1, writeEntry sorted path e) := by
  induction es with
  | nil => rfl
  | cons e es ih => rw [writeEntries, ih, List.map_cons]; rfl

/-- If a dictionary with text keys is written, its values can be written. -/
theorem write_entry {path : List Nat} {es : List (Value × Value)} (object : IsObject es) {w : List Char}
    (h : writeIn true path (.ofEntries es) = .ok w) : ∀ e ∈ es, ∃ part, writeIn true path e.2 = .ok part := by
  intro e he
  have text : ∀ r ∈ writeEntries true path es, ∃ k, r.1 = str k := fun r hr => by
    rw [writeEntries_eq] at hr
    obtain ⟨e', he', rfl⟩ := List.mem_map.1 hr
    exact object.text e' he'
  have sorted := sortEntries_eq text
  have there : writeEntry true path e ∈ (byName (writeEntries true path es)).map (·.2) := by
    rw [((byName_perm text).map _).mem_iff, writeEntries_eq, List.map_map]
    exact List.mem_map_of_mem (f := fun e => writeEntry true path e) he
  have parts : ∃ ps, allWritten ((byName (writeEntries true path es)).map (·.2)) = .ok ps := by
    have free : isEntered none path = false := rfl
    have entered : enter none path = path := rfl
    simp only [writeIn, free, Bool.false_eq_true, if_false, if_true, entered, sorted] at h
    obtain ⟨ps, written, -⟩ := Except.bind_eq_ok.1 h
    exact ⟨ps, written⟩
  obtain ⟨ps, written⟩ := parts
  obtain ⟨entry, written⟩ := ok_of_allWritten written _ there
  obtain ⟨name, -, written⟩ := Except.bind_eq_ok.1 written
  obtain ⟨part, written, -⟩ := Except.bind_eq_ok.1 written
  exact ⟨part, written⟩

end ZincModel.Json
