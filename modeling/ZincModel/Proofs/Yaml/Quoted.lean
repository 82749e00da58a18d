import ZincModel.Proofs.Yaml.Sheet

/-!
# Reading between quotes

The reader takes a text between quotes in runs and gaps. Here it is followed character by character
(`ReadsQuoted`): a run goes on with its next character, and a gap of spaces or of a row of line ends is taken at
once, however the text has been folded. Since spaces belong to the gap they stand in, a place behind a space
waits for the run behind the gap (`ReadsQuotedOn`).
-/

namespace ZincModel.Yaml

open Json (IsPrintable)
open List (replicate)

/-! ## Runs and gaps -/

/-- A run between quotes. -/
def quotedRun (quote : Char) (fuel : Nat) (c : Cursor) : Except Fault (List Char × Cursor) :=
  if quote == '"' then doubleRun fuel c else .ok (singleRun fuel c)

section Run

variable {quote x : Char} {t : List Char} {c : Cursor}

theorem singleRun_cons (fuel : Nat) (here : c.rest = x :: t) (single : x = '\'' → t.head? ≠ some '\'') :
    singleRun (fuel + 1) c =
      if isGap x || x == '\'' then ([], c) else (x :: (singleRun fuel c.next).1, (singleRun fuel c.next).2) := by
  rw [singleRun.eq_def]
  dsimp only
  split
  · next e => simp [here] at e
  · next e =>
    rw [here] at e
    cases e
    exact absurd rfl (single rfl)
  · next e =>
    rw [here] at e
    cases e
    rfl

/-- No run starts with a blank, the end of a line or the closing quote. -/
theorem quotedRun_stop (fuel : Nat) (here : c.rest = x :: t) (stops : isGap x = true ∨ x = quote)
    (quotes : quote = '"' ∨ quote = '\'' ∧ (x = '\'' → t.head? ≠ some '\'')) :
    quotedRun quote (fuel + 1) c = .ok ([], c) := by
  rcases quotes with rfl | ⟨rfl, single⟩
  · have ends : (isGap x || x == '"') = true := by simpa using stops
    simp [quotedRun, doubleRun, here, ends]
  · have ends : (isGap x || x == '\'') = true := by simpa using stops
    simp [quotedRun, singleRun_cons fuel here single, ends]

/-- A run goes on over any other character that is not escaped. -/
theorem quotedRun_char (fuel : Nat) (here : c.rest = x :: t) (gap : isGap x = false)
    (quotes : quote = '"' ∧ x ≠ '"' ∧ x ≠ '\\' ∨ quote = '\'' ∧ x ≠ '\'') :
    quotedRun quote (fuel + 1) c = (quotedRun quote fuel c.next).map fun r => ([x] ++ r.1, r.2) := by
  rcases quotes with ⟨rfl, other, plain⟩ | ⟨rfl, other⟩
  · simp [quotedRun, doubleRun, here, gap, other, plain]
  · simp [quotedRun, singleRun_cons fuel here (fun e => absurd e other), gap, other, Except.map]

theorem quotedRun_quote (fuel : Nat) (here : c.rest = '\'' :: '\'' :: t) :
    quotedRun '\'' (fuel + 1) c = (quotedRun '\'' fuel (c.advance 2)).map fun r => (['\''] ++ r.1, r.2) := by
  simp [quotedRun, singleRun, here, Except.map]

theorem quotedRun_escape (fuel : Nat) {text : List Char} {c' : Cursor} (here : c.rest = '\\' :: t)
    (read : escape c.next = .ok (text, c')) :
    quotedRun '"' (fuel + 1) c = (quotedRun '"' fuel c').map fun r => (text ++ r.1, r.2) := by
  have gap : isGap '\\' = false := rfl
  cases more : doubleRun fuel c' <;> simp [quotedRun, doubleRun, here, gap, read, more, Except.map]

end Run

/-! ## Gaps -/

section Gap

variable {c : Cursor} {t : List Char} {k : Nat}

/-- Where no gap is, something stands that is neither a blank nor the end of a line. -/
theorem of_atGap (h : atGap t = false) :
    t ≠ [] ∧ ∀ x, t.head? = some x → (x == ' ' || x == '\t') = false ∧ isBreak x = false := by
  cases t with
  | nil => cases h
  | cons y t =>
    refine ⟨by simp, fun x e => ?_⟩
    cases e
    exact Bool.or_eq_false_iff.1 h

theorem takeBlanks {n : Nat} (here : c.rest = replicate n ' ' ++ t)
    (ht : ∀ x, t.head? = some x → (x == ' ' || x == '\t') = false) :
    c.takeWhile (fun x => x == ' ' || x == '\t') = (replicate n ' ', c.advance n) := by
  have taken := Cursor.takeWhile_eq (p := fun x => x == ' ' || x == '\t') here
    (fun x hx => by simp [List.eq_of_mem_replicate hx]) ht
  rwa [List.length_replicate] at taken

theorem quotedGap_spaces {n : Nat} (here : c.rest = replicate n ' ' ++ t) (ht : atGap t = false) :
    quotedGap c = .ok (replicate n ' ', c.advance n) := by
  obtain ⟨some, first⟩ := of_atGap ht
  have rest : (c.advance n).rest = t := by rw [Cursor.advance_spaces here]
  have stays : (c.advance n).lineBreak? = none := Cursor.lineBreak?_eq_none fun x hx => (first x (rest ▸ hx)).2
  have blanks := takeBlanks here fun x hx => (first x hx).1
  have more : (c.advance n).rest.isEmpty = false := by rw [rest]; exact List.isEmpty_eq_false_iff.2 some
  simp only [quotedGap, blanks, more, stays, Bool.false_eq_true, if_false]

theorem quotedBreaks_eq {m fuel : Nat} (here : c.rest = replicate m '\n' ++ (replicate k ' ' ++ t))
    (positive : 0 < k) (ht : atGap t = false) (enough : m < fuel) :
    quotedBreaks fuel c = .ok (replicate m '\n', c.advance (m + k)) := by
  induction m generalizing c fuel with
  | zero =>
    obtain ⟨fuel, rfl⟩ : ∃ n, fuel = n + 1 := ⟨fuel - 1, by omega⟩
    obtain ⟨k, rfl⟩ : ∃ n, k = n + 1 := ⟨k - 1, by omega⟩
    obtain ⟨-, first⟩ := of_atGap ht
    have start : atDocumentMark c.rest = false := by rw [here]; rfl
    have rest : (c.advance (k + 1)).rest = t := by rw [Cursor.advance_spaces here]
    have stays : (c.advance (k + 1)).lineBreak? = none :=
      Cursor.lineBreak?_eq_none fun x hx => (first x (rest ▸ hx)).2
    have blanks := takeBlanks here fun x hx => (first x hx).1
    simp only [quotedBreaks, start, Bool.false_eq_true, if_false, Cursor.skipWhile, blanks, stays, Nat.zero_add,
      List.replicate_zero]
  | succ m ih =>
    obtain ⟨fuel, rfl⟩ : ∃ n, fuel = n + 1 := ⟨fuel - 1, by omega⟩
    rw [List.replicate_succ, List.cons_append] at here
    have start : atDocumentMark c.rest = false := by rw [here]; rfl
    have blanks := takeBlanks (c := c) (n := 0) here (by simp)
    have inner := ih (c := c.next) (by simp [here]) (by omega : m < fuel)
    rw [Cursor.advance_zero] at blanks
    simp only [quotedBreaks, start, Bool.false_eq_true, if_false, Cursor.skipWhile, blanks,
      Cursor.lineBreak?_newline here, inner, Nat.succ_add, Cursor.advance_succ]
    rfl

/-- The end of a line counts as a space, or as the ends of the empty lines that follow it. -/
theorem quotedGap_lines {m : Nat} (here : c.rest = '\n' :: (replicate m '\n' ++ (replicate k ' ' ++ t)))
    (positive : 0 < k) (ht : atGap t = false) (fits : c.Fits) :
    quotedGap c = .ok (folded '\n' (replicate m '\n'), c.advance (m + k + 1)) := by
  have blanks := takeBlanks (c := c) (n := 0) here (by simp)
  have enough : m < c.next.bound := by
    have length := congrArg List.length here
    simp only [List.length_cons, List.length_append, List.length_replicate] at length
    simp only [Cursor.bound, Cursor.size_next]
    unfold Cursor.Fits at fits
    omega
  have inner := quotedBreaks_eq (c := c.next) (by simp [here]) positive ht enough
  rw [Cursor.advance_zero] at blanks
  have some : c.rest.isEmpty = false := by rw [here]; rfl
  simp only [quotedGap, blanks, some, Bool.false_eq_true, if_false, Cursor.lineBreak?_newline here, inner]
  rfl

end Gap

/-- The rest of a text between quotes, from inside of a run on. -/
def quotedOn (quote : Char) (runFuel fuel : Nat) (c : Cursor) : Except Fault (List Char × Cursor) := do
  let (run, c) ← quotedRun quote runFuel c
  if c.rest.head? = some quote then return (run, c.next)
  else
    let (gap, c) ← quotedGap c
    let (more, c) ← quotedFrom quote fuel c
    return (run ++ gap ++ more, c)

theorem quotedFrom_succ (quote : Char) (fuel : Nat) (c : Cursor) :
    quotedFrom quote (fuel + 1) c = quotedOn quote c.bound fuel c := by
  rw [quotedFrom]
  unfold quotedOn quotedRun
  split <;> rfl

/-- From a place between quotes on the text `s` is read, up to the place `last` behind the closing quote. -/
def ReadsQuoted (quote : Char) (c : Cursor) (s : List Char) (last : Cursor) : Prop :=
  ∀ runFuel fuel, c.rest.length < runFuel → c.rest.length < fuel →
    quotedOn quote runFuel fuel c = .ok (s, last)

namespace ReadsQuoted

variable {quote : Char} {c c' last : Cursor} {s text : List Char}

/-- The first characters of a run are read one by one. -/
theorem step (text : List Char) (shorter : c'.rest.length < c.rest.length)
    (run : ∀ fuel, quotedRun quote (fuel + 1) c = (quotedRun quote fuel c').map fun r => (text ++ r.1, r.2))
    (h : ReadsQuoted quote c' s last) : ReadsQuoted quote c (text ++ s) last := by
  intro runFuel fuel hr hf
  obtain ⟨runFuel, rfl⟩ : ∃ n, runFuel = n + 1 := ⟨runFuel - 1, by omega⟩
  have rest := h runFuel fuel (by omega) (by omega)
  unfold quotedOn at rest ⊢
  rw [run]
  cases e : quotedRun quote runFuel c' with
  | error f => simp [e] at rest
  | ok r =>
    obtain ⟨r, d⟩ := r
    simp only [e, Except.ok_bind] at rest
    change (if d.rest.head? = some quote then _ else _) = _
    by_cases closes : d.rest.head? = some quote
    · rw [if_pos closes] at rest ⊢
      cases rest
      rfl
    · rw [if_neg closes] at rest ⊢
      obtain ⟨⟨gap, e⟩, gapRead, rest⟩ := Except.bind_eq_ok.1 rest
      obtain ⟨⟨more, e'⟩, moreRead, rest⟩ := Except.bind_eq_ok.1 rest
      cases rest
      simp [gapRead, moreRead]

theorem gap {gap : List Char} {x : Char} {t : List Char} (here : c.rest = x :: t) (blank : isGap x = true)
    (quotes : quote = '"' ∨ quote = '\'') (read : quotedGap c = .ok (gap, c'))
    (shorter : c'.rest.length < c.rest.length) (size : c'.rest.length ≤ c'.size)
    (h : ReadsQuoted quote c' s last) : ReadsQuoted quote c (gap ++ s) last := by
  intro runFuel fuel hr hf
  obtain ⟨runFuel, rfl⟩ : ∃ n, runFuel = n + 1 := ⟨runFuel - 1, by omega⟩
  obtain ⟨fuel, rfl⟩ : ∃ n, fuel = n + 1 := ⟨fuel - 1, by omega⟩
  have differ : x ≠ quote := by
    rintro rfl
    rcases quotes with rfl | rfl <;> cases blank
  have run : quotedRun quote (runFuel + 1) c = .ok ([], c) := by
    refine quotedRun_stop runFuel here (.inl blank) (quotes.imp_right fun e => ⟨e, fun e' => ?_⟩)
    exact absurd (e'.trans e.symm) differ
  have rest := h c'.bound fuel (Nat.lt_succ_of_le size) (by omega)
  unfold quotedOn
  simp [run, here, differ, read, quotedFrom_succ, rest]

theorem close {t : List Char} (here : c.rest = quote :: t)
    (quotes : quote = '"' ∨ quote = '\'' ∧ t.head? ≠ some '\'') : ReadsQuoted quote c [] c.next := by
  intro runFuel fuel hr hf
  obtain ⟨runFuel, rfl⟩ : ∃ n, runFuel = n + 1 := ⟨runFuel - 1, by omega⟩
  have run : quotedRun quote (runFuel + 1) c = .ok ([], c) :=
    quotedRun_stop runFuel here (.inr rfl) (quotes.imp_right fun e => ⟨e.1, fun _ => e.2⟩)
  simp [quotedOn, run, here]

theorem whole (h : ReadsQuoted quote c.next s last) {t : List Char} (here : c.rest = quote :: t) (fits : c.Fits) :
    quotedText quote c = .ok (s, last) := by
  have shorter : c.next.rest.length < c.size := by
    have length := congrArg List.length here
    simp only [List.length_cons] at length
    unfold Cursor.Fits at fits
    rw [Cursor.rest_next, here, List.tail_cons]
    omega
  exact (quotedFrom_succ ..).trans (h _ _ (Nat.lt_succ_of_le fits.next) shorter)

end ReadsQuoted

/-- Behind spaces the reading between quotes goes on with the next run. -/
structure QuotedResumes (quote : Char) (c : Cursor) (s : List Char) (last : Cursor) (m : Nat) (s' : List Char) :
    Prop where
  text : s = replicate m ' ' ++ s'
  rest : c.rest = replicate m ' ' ++ (c.advance m).rest
  gap : atGap (c.advance m).rest = false
  read : ReadsQuoted quote (c.advance m) s' last

/-- From a place between quotes on the text `s` is read; if a space stands before the place, what comes next is no
end of a line, and spaces that follow belong to the same gap. -/
def ReadsQuotedOn (quote : Char) (c : Cursor) (s : List Char) (last : Cursor) : (afterSpace : Bool) → Prop
  | false => ReadsQuoted quote c s last
  | true => ∃ m s', QuotedResumes quote c s last m s'

namespace ReadsQuotedOn

variable {quote : Char} {c last : Cursor} {s t : List Char} {k : Nat}

theorem of_reads (gap : atGap c.rest = false) (h : ReadsQuoted quote c s last) (b : Bool) :
    ReadsQuotedOn quote c s last b := by
  cases b with
  | false => exact h
  | true => exact ⟨0, s, rfl, rfl, gap, h⟩

theorem reads (h : ReadsQuotedOn quote c s last true) (quotes : quote = '"' ∨ quote = '\'') (fits : c.Fits) :
    ReadsQuoted quote c s last := by
  obtain ⟨m, s', rfl, rest, gap, read⟩ := h
  cases m with
  | zero => exact read
  | succ m =>
    have shorter : (c.advance (m + 1)).rest.length < c.rest.length := by
      have length := congrArg List.length rest
      simp only [List.length_append, List.length_replicate] at length
      omega
    exact read.gap (x := ' ') rest rfl quotes (quotedGap_spaces rest gap) shorter (fits.advance _)

theorem space (here : c.rest = ' ' :: t) (h : ReadsQuotedOn quote c.next s last true)
    (quotes : quote = '"' ∨ quote = '\'') (fits : c.Fits) (b : Bool) : ReadsQuotedOn quote c (' ' :: s) last b := by
  have later : ReadsQuotedOn quote c (' ' :: s) last true := by
    obtain ⟨m, s', rfl, rest, gap, read⟩ := h
    refine ⟨m + 1, s', rfl, ?_, gap, read⟩
    rw [List.replicate_succ, List.cons_append, Cursor.advance_succ, ← rest, here]
    simp [here]
  cases b with
  | true => exact later
  | false => exact later.reads quotes fits

theorem lines {m : Nat} (here : c.rest = '\n' :: (replicate m '\n' ++ (replicate k ' ' ++ t))) (positive : 0 < k)
    (first : s.head? ≠ some ' ') (h : ReadsQuotedOn quote (c.advance (m + k + 1)) s last true)
    (quotes : quote = '"' ∨ quote = '\'') (fits : c.Fits) :
    ReadsQuoted quote c (folded '\n' (replicate m '\n') ++ s) last := by
  have rest := Cursor.rest_advance_lines here
  obtain ⟨n, s', rfl, -, gap, read⟩ := h
  obtain rfl : n = 0 := by
    cases n with
    | zero => rfl
    | succ n => exact absurd rfl first
  have shorter : (c.advance (m + k + 1)).rest.length < c.rest.length := by
    rw [rest, here]
    simp
    omega
  rw [Cursor.advance_zero, rest] at gap
  exact read.gap here rfl quotes (quotedGap_lines here positive gap fits) shorter (fits.advance _)

end ReadsQuotedOn

end ZincModel.Yaml
