import ZincModel.Proofs.Json.Objects
import ZincModel.Proofs.Json.Relaying
import ZincModel.Solution.Reading

/-!
# Which outputs hold a solution

The solution is the object of JSON that stands in front of the end of an output or of a separator line
(`parse_objects`), although the lines there are taken apart and joined again, and blanks are cut off: no line of a JSON
text is a separator, newlines stand between its tokens only, and layout does not matter to a JSON reader. This holds of
a text as it is where its layout is that of JSON (`LaidOut`). The other characters that end a line can stand between
quotes, where they are replaced by newlines, and they, blanks that JSON does not have and separators that are indented
can make a solution of what JSON does not allow (`parse_lineSeparator`).
-/

namespace ZincModel.Solution

open Text
open Json (Passes IsMark)

/-! ## Separator lines -/

theorem isSeparator_nil : isSeparator [] = false := by decide

theorem isSeparator_cons_blank {c : Char} (h : isBlank c = true) (line : List Char) :
    isSeparator (c :: line) = isSeparator line := by
  rw [isSeparator, strip_cons_blank h]
  rfl

theorem isSeparator_cons {c : Char} (h : isBlank c = false) (hyphen : c ≠ '-') (equals : c ≠ '=') (line : List Char) :
    isSeparator (c :: line) = false := by
  simp [isSeparator, strip_cons h, List.replicate_succ, List.isPrefixOf, hyphen.symm, equals.symm]

theorem isSeparator_minus {c : Char} (h : isBlank c = false) (hyphen : c ≠ '-') (line : List Char) :
    isSeparator ('-' :: c :: line) = false := by
  have inner : isBlank '-' = false := by decide
  simp [isSeparator, strip_cons inner, stripEnd_cons h, List.replicate_succ, List.isPrefixOf, hyphen.symm]

/-- The two rows of signs that separators start with. -/
def IsRule (w : List Char) : Prop := w = List.replicate 10 '-' ∨ w = List.replicate 10 '='

theorem isSeparator_iff {line : List Char} : isSeparator line = true ↔ ∃ w, IsRule w ∧ w <+: strip line := by
  simp [isSeparator, IsRule, or_and_right, exists_or]

theorem isSeparator_rule {w : List Char} (h : IsRule w) (line : List Char) : isSeparator (w ++ line) = true := by
  have hyphen : isBlank '-' = false := by decide
  have equals : isBlank '=' = false := by decide
  rcases h with rfl | rfl
  · simp [isSeparator, List.replicate_succ, strip_cons, stripEnd_cons, hyphen, List.isPrefixOf]
  · simp [isSeparator, List.replicate_succ, strip_cons, stripEnd_cons, equals, List.isPrefixOf]

/-! ## Lines of JSON texts -/

/-- The character ends no line, or is a newline. -/
def IsOrdinary (c : Char) : Prop := isLineBoundary c = true → c = '\n' ∨ c = '\r'

instance (c : Char) : Decidable (IsOrdinary c) := inferInstanceAs (Decidable (_ → _))

theorem not_boundary {c : Char} (printed : 0x20 ≤ c.toNat) (ordinary : IsOrdinary c) : isLineBoundary c = false := by
  by_contra h
  rcases ordinary (by simpa using h) with rfl | rfl <;> exact absurd printed (by decide)

theorem isBlank_of_json {c : Char} (h : Json.isBlank c = true) : isBlank c = true := by
  simp only [Json.isBlank, Bool.or_eq_true, beq_iff_eq] at h
  rcases h with ((rfl | rfl) | rfl) | rfl <;> decide

theorem IsMark.not_blank {c : Char} (h : IsMark c) : isBlank c = false := by
  obtain ⟨⟨low, high⟩, -, -⟩ := h
  simp [isBlank, inRanges, blankRanges]
  omega

theorem all_prepend {P : List Char → Prop} {w : List Char} (whole : ∀ line, P (w ++ line)) {ls : List (List Char)}
    (h : ∀ line ∈ ls, P line) : ∀ line ∈ prepend w ls, P line := by
  cases ls with
  | nil => exact List.forall_mem_singleton.2 (List.append_nil w ▸ whole [])
  | cons l ls =>
    exact List.forall_mem_cons.2 ⟨whole l, (List.forall_mem_cons.1 h).2⟩

/-- No line of a text that is passed is a separator. -/
theorem isSeparator_of_passes {t : List Char} (h : Passes [] t) (ordinary : ∀ c ∈ t, IsOrdinary c) :
    ∀ line ∈ lines t, isSeparator line = false := by
  have printed {c : Char} (hc : IsMark c) : 0x20 ≤ c.toNat := le_trans (by decide) hc.1.1
  induction h with
  | refl => exact fun line hl => by cases hl
  | @blank c s hc _ ih =>
    obtain ⟨first, others⟩ := List.forall_mem_cons.1 ordinary
    have ih := ih others
    have blank (line : List Char) : isSeparator (c :: line) = isSeparator line :=
      isSeparator_cons_blank (isBlank_of_json hc) line
    cases boundary : isLineBoundary c with
    | true =>
      rcases lines_boundary_cons boundary s with e | e <;> rw [e]
      · exact List.forall_mem_cons.2 ⟨isSeparator_nil, ih⟩
      · exact ih
    | false =>
      rw [lines_cons boundary]
      cases e : lines s with
      | nil => exact List.forall_mem_singleton.2 (blank [])
      | cons l ls =>
        rw [e] at ih
        obtain ⟨front, behind⟩ := List.forall_mem_cons.1 ih
        exact List.forall_mem_cons.2 ⟨(blank l).trans front, behind⟩
  | @mark c s hc _ ih =>
    obtain ⟨first, others⟩ := List.forall_mem_cons.1 ordinary
    rw [lines_cons (not_boundary (printed hc) first)]
    exact all_prepend (isSeparator_cons (IsMark.not_blank hc) hc.2.1 hc.2.2) (ih others)
  | @minus c s hc _ ih =>
    obtain ⟨first, others⟩ := List.forall_mem_cons.1 ordinary
    obtain ⟨second, others⟩ := List.forall_mem_cons.1 others
    have inner : ∀ d ∈ ['-', c], isLineBoundary d = false :=
      List.forall_mem_cons.2 ⟨rfl, List.forall_mem_singleton.2 (not_boundary (printed hc) second)⟩
    rw [show '-' :: c :: s = ['-', c] ++ s from rfl, lines_append (by simp) inner]
    exact all_prepend (isSeparator_minus (IsMark.not_blank hc) hc.2.1) (ih others)
  | @quoted q s hq _ ih =>
    obtain ⟨-, others⟩ := List.forall_mem_cons.1 ordinary
    obtain ⟨inside, others⟩ := List.forall_mem_append.1 others
    obtain ⟨-, others⟩ := List.forall_mem_cons.1 others
    have inner : ∀ d ∈ '"' :: (q ++ ['"']), isLineBoundary d = false := by
      refine List.forall_mem_cons.2 ⟨rfl, List.forall_mem_append.2 ⟨fun d hd => ?_, List.forall_mem_singleton.2 rfl⟩⟩
      exact not_boundary (hq d hd) (inside d hd)
    rw [show '"' :: (q ++ '"' :: s) = '"' :: (q ++ ['"']) ++ s by simp, lines_append (by simp) inner]
    exact all_prepend (fun line => isSeparator_cons (by decide) (by decide) (by decide) _) (ih others)

/-! ## Objects in front of separators -/

/-- What can stand behind a solution: nothing, or a newline and a separator line in front of anything. -/
def Follows (r : List Char) : Prop := r = [] ∨ ∃ w x, IsRule w ∧ r = '\n' :: (w ++ x)

/-- A solution ends here: nothing stands behind it, or a newline and a text whose first line is a separator. -/
def Stops (r : List Char) : Prop :=
  r = [] ∨ ∃ x line more, r = '\n' :: x ∧ lines x = line :: more ∧ isSeparator line = true

/-- The first line is a separator where a row stands in front. -/
theorem lines_rule {w : List Char} (rule : IsRule w) (x : List Char) :
    ∃ line more, lines (w ++ x) = line :: more ∧ isSeparator line = true := by
  have some : w ≠ [] := by rcases rule with rfl | rfl <;> simp
  have plain : ∀ c ∈ w, isLineBoundary c = false := by rcases rule with rfl | rfl <;> simp [isLineBoundary]
  rw [lines_append some plain]
  cases lines x with
  | nil => exact ⟨w, [], rfl, List.append_nil w ▸ isSeparator_rule rule []⟩
  | cons l ls => exact ⟨w ++ l, ls, rfl, isSeparator_rule rule l⟩

theorem Follows.stops {r : List Char} (h : Follows r) : Stops r := by
  rcases h with rfl | ⟨w, x, rule, rfl⟩
  · exact Or.inl rfl
  · obtain ⟨line, more, first, separator⟩ := lines_rule rule x
    exact Or.inr ⟨w ++ x, line, more, rfl, first, separator⟩

theorem takeWhile_separator {x line : List Char} {more : List (List Char)} (first : lines x = line :: more)
    (separator : isSeparator line = true) : (lines x).takeWhile (!isSeparator ·) = [] := by
  rw [first]
  simp [separator]

/-- The lines of the text are those of `p`, perhaps an empty one, and then none or a separator. -/
def CutAt (p t : List Char) : Prop :=
  ∃ last ls, (last = [] ∨ last = [[]]) ∧ lines t = lines p ++ (last ++ ls) ∧
    ∀ line, ls.head? = some line → isSeparator line = true

theorem cutAt_of_stops (p : List Char) {r : List Char} (h : Stops r) : CutAt p (p ++ r) := by
  rcases h with rfl | ⟨x, line, more, rfl, first, separator⟩
  · exact ⟨[], [], Or.inl rfl, by simp, by simp⟩
  · obtain ⟨last, hlast, behind⟩ := lines_append_newline p
    exact ⟨last, lines x, hlast, behind x, by simp [first, separator]⟩

theorem strip_join_append_nil (ls : List (List Char)) :
    strip (join ['\n'] (ls ++ [[]])) = strip (join ['\n'] ls) := by
  by_cases h : ls = []
  · rw [h]
    rfl
  · rw [join_append_nil h]
    exact strip_append_blanks _ (List.forall_mem_singleton.2 rfl)

/-- The text without the blanks of JSON around it. -/
def trim (p : List Char) : List Char := (Json.skip (Json.skip p).reverse).reverse

/-- The text has the layout of JSON: its lines end with newlines only, none of them is a separator behind blanks, and
what stands between blanks of JSON has no other blanks around it. -/
structure LaidOut (p : List Char) : Prop where
  ordinary : ∀ c ∈ p, IsOrdinary c
  flush : ∀ line ∈ lines p, isSeparator line = false
  start : ∀ c, (trim p).head? = some c → isBlank c = false
  stop : ∀ c, (trim p).getLast? = some c → isBlank c = false

theorem firstPart_of_cut {p t : List Char} (cut : CutAt p t) (laid : LaidOut p) :
    firstPart t = strip (unifyNewlines p) := by
  obtain ⟨last, ls, hlast, behind, separator⟩ := cut
  have all : ∀ line ∈ lines p, (!isSeparator line) = true := by simpa using laid.flush
  have stop : ls.takeWhile (!isSeparator ·) = [] := by
    cases ls with
    | nil => rfl
    | cons line ls => simp [separator line rfl]
  obtain ⟨newline, joined, hn⟩ := unifyNewlines_eq_join laid.ordinary
  have blanks : ∀ c ∈ newline, isBlank c = true := by
    rcases hn with rfl | rfl
    · exact List.forall_mem_nil _
    · exact List.forall_mem_singleton.2 rfl
  rw [firstPart, behind, List.takeWhile_append_of_pos all, joined, strip_append_blanks _ blanks]
  rcases hlast with rfl | rfl
  · rw [List.nil_append, stop, List.append_nil]
  · rw [List.singleton_append, List.takeWhile_cons_of_pos (by simp [isSeparator_nil]), stop, strip_join_append_nil]

theorem exists_trim (p : List Char) :
    ∃ a b, p = a ++ (trim p ++ b) ∧ Json.skip p = trim p ++ b ∧
      (∀ c ∈ a, Json.isBlank c = true) ∧ ∀ c ∈ b, Json.isBlank c = true := by
  have front : p = p.takeWhile Json.isBlank ++ Json.skip p := List.takeWhile_append_dropWhile.symm
  have behind : Json.skip p = trim p ++ ((Json.skip p).reverse.takeWhile Json.isBlank).reverse := by
    rw [trim, ← List.reverse_append]
    exact (List.reverse_eq_iff.2 List.takeWhile_append_dropWhile).symm
  refine ⟨_, _, behind ▸ front, behind, fun c hc => List.mem_takeWhile_imp hc, fun c hc => ?_⟩
  exact List.mem_takeWhile_imp (List.mem_reverse.1 hc)

/-- Cutting blanks off a text that is laid out as JSON is cuts off blanks of JSON. -/
theorem relaid_strip {p : List Char} (laid : LaidOut p) : Json.Relaid (Json.skip p) (strip (unifyNewlines p)) := by
  obtain ⟨a, b, parts, skipped, ha, hb⟩ := exists_trim p
  have blank {s : List Char} (hs : ∀ c ∈ s, Json.isBlank c = true) : ∀ c ∈ unifyNewlines s, isBlank c = true :=
    fun c hc => isBlank_of_json (Json.unifyNewlines_blanks hs c hc)
  have inner {c : Char} (hc : isBlank c = false) (s : List Char) : unifyNewlines (c :: s) = c :: unifyNewlines s := by
    have other : c ≠ '\r' := by rintro rfl; cases hc
    rw [unifyNewlines_cons fun e => absurd e other, if_neg other]
  have noFeed {c : Char} (hc : isBlank c = false) : c ≠ '\n' := by rintro rfl; cases hc
  have stripped : strip (unifyNewlines p) = unifyNewlines (trim p) := by
    have start := laid.start
    have stop := laid.stop
    generalize trim p = m at parts start stop ⊢
    rw [parts]
    rcases List.eq_nil_or_concat m with rfl | ⟨m', d, e⟩
    · have all : ∀ c ∈ a ++ ([] ++ b), Json.isBlank c = true := List.forall_mem_append.2 ⟨ha, hb⟩
      exact strip_append_blanks [] (blank all)
    · obtain ⟨c, m, rfl⟩ := List.exists_cons_of_ne_nil (l := m) (by simp [e])
      have hc : isBlank c = false := start c rfl
      have hd : isBlank d = false := stop d (by simp [e])
      calc
        strip (unifyNewlines (a ++ (c :: m ++ b)))
          = strip (unifyNewlines a ++ c :: unifyNewlines (m ++ b)) := by
            rw [List.cons_append, unifyNewlines_append (noFeed hc), inner hc]
        _ = stripEnd (unifyNewlines (c :: m ++ b)) := by
            rw [strip_blanks_append (blank ha), strip_cons hc, ← stripEnd_cons hc, List.cons_append, inner hc]
        _ = stripEnd (unifyNewlines m' ++ d :: unifyNewlines b) := by
            rw [e, List.concat_eq_append, List.append_assoc, List.singleton_append, unifyNewlines_append (noFeed hd),
              inner hd]
        _ = unifyNewlines (c :: m) := by
            rw [stripEnd_append hd _ (blank hb), e, List.concat_eq_append, unifyNewlines_append (noFeed hd), inner hd]
            rfl
  rw [stripped, skipped]
  exact Json.relaid_unifyNewlines _ hb

/-- What is found in a text that stands for this. -/
def found : Except Json.ReadFault Value → Except Fault (Option (List (Value × Value)))
  | .ok (.dict _ entries) => .ok (some entries)
  | .error (.tooLong digits) => .error (.content (.integerUnreadable digits))
  | _ => .ok none

theorem parse_eq_found (t : List Char) : parse t = found (Json.read (firstPart t)) := by
  unfold parse
  dsimp only
  split
  · next empty =>
    rw [List.isEmpty_iff.1 empty]
    rfl
  · split <;> simp_all [found]

theorem found_relaid {s t : List Char} (h : Json.Relaid (Json.skip s) (Json.skip t)) :
    found (Json.read s) = found (Json.read t) := by
  obtain ⟨values, long⟩ := Json.read_relaid h
  cases hs : Json.read s with
  | ok v => rw [(values v).1 hs]
  | error fault =>
    cases fault with
    | tooLong digits => rw [(long digits).1 hs]
    | malformed fault =>
      cases ht : Json.read t with
      | ok v => rw [(values v).2 ht] at hs; cases hs
      | error fault' =>
        cases fault' with
        | tooLong digits => rw [(long digits).2 ht] at hs; cases hs
        | malformed => rfl

/-- What is found in front of a cut is what the text there stands for. -/
theorem parse_of_cut {p t : List Char} (cut : CutAt p t) (laid : LaidOut p) : parse t = found (Json.read p) := by
  have skip_skip : Json.skip (Json.skip p) = Json.skip p := List.dropWhile_idempotent Json.isBlank p
  rw [parse_eq_found, firstPart_of_cut cut laid]
  exact (found_relaid (skip_skip ▸ (relaid_strip laid).skip)).symm

/-! ## Objects -/

/-- An object takes up the text, but for blanks around it. -/
theorem exists_braces {t : List Char} {l : Option Label} {es : List (Value × Value)}
    (h : Json.read t = .ok (.dict l es)) :
    ∃ a w b, t = a ++ '{' :: (w ++ '}' :: b) ∧ Json.skip t = '{' :: (w ++ '}' :: b) ∧
      (∀ c ∈ a, Json.isBlank c = true) ∧ (∀ c ∈ b, Json.isBlank c = true) ∧ Passes [] t := by
  obtain ⟨rest, value, behind⟩ := Json.readWhole_eq_ok (Except.mapError_eq_ok.1 h)
  have front : t = t.takeWhile Json.isBlank ++ Json.skip t := List.takeWhile_append_dropWhile.symm
  have passes : Passes [] t :=
    (Passes.skip t).trans (((Json.passes_read _).1 value).trans (behind ▸ Passes.skip rest))
  have ends : ∃ w, Json.skip t = '{' :: (w ++ '}' :: rest) := by
    obtain ⟨f, -, kinds⟩ := Json.readValue_eq_ok value
    rcases kinds with
      ⟨s, t, -, -, e⟩ | ⟨s, e, brace, -⟩ | ⟨s, es, e, entries, -⟩ | ⟨s, -, -, e⟩ | ⟨s, vs, -, -, e⟩ | scalar
    · cases e
    · obtain ⟨w, rfl⟩ := (brace ▸ Passes.skip s).suffix
      exact ⟨w, e⟩
    · obtain ⟨w, rfl⟩ := ((Passes.skip s).trans ((Json.passes_read f).2.1 entries)).suffix
      exact ⟨w, e⟩
    · cases e
    · cases e
    · exact absurd scalar Json.readScalar_ne_dict
  obtain ⟨w, e⟩ := ends
  refine ⟨_, w, rest, e ▸ front, e, fun c hc => List.mem_takeWhile_imp hc, ?_, passes⟩
  simpa [Json.skip, List.dropWhile_eq_nil_iff] using behind

theorem laidOut_of_object {t : List Char} {l : Option Label} {es : List (Value × Value)}
    (h : Json.read t = .ok (.dict l es)) (ordinary : ∀ c ∈ t, IsOrdinary c) : LaidOut t := by
  obtain ⟨a, w, b, -, skipped, -, hb, passes⟩ := exists_braces h
  have trimmed : trim t = '{' :: (w ++ ['}']) := by
    have reversed : ('{' :: (w ++ '}' :: b)).reverse = b.reverse ++ '}' :: (w.reverse ++ ['{']) := by simp
    rw [trim, skipped, reversed, Json.skip_append fun c hc => hb c (List.mem_reverse.1 hc), Json.skip_inner rfl]
    simp
  refine ⟨ordinary, isSeparator_of_passes passes ordinary, ?_, ?_⟩
  · rw [trimmed]
    rintro c ⟨⟩
    decide
  · rw [trimmed, ← List.cons_append, List.getLast?_append]
    rintro c ⟨⟩
    decide

theorem parse_object {t r : List Char} {l : Option Label} {es : List (Value × Value)}
    (h : Json.read t = .ok (.dict l es)) (ordinary : ∀ c ∈ t, IsOrdinary c) (stops : Stops r) :
    parse (t ++ r) = .ok (some es) := by
  rw [parse_of_cut (cutAt_of_stops t stops) (laidOut_of_object h ordinary), h]
  rfl

/-- What is parsed is in the first part. -/
theorem parse_congr {t t' : List Char} (h : firstPart t = firstPart t') : parse t = parse t' := by
  unfold parse
  rw [h]

/-- Where a solution ends does not depend on how lines are ended. -/
theorem parse_unifyNewlines (t : List Char) : parse (unifyNewlines t) = parse t :=
  parse_congr (by rw [firstPart, firstPart, lines_unifyNewlines])

/-! ## The text as it is -/

/-- A row of ten hyphens or ten equals signs stands at the start. -/
def startsRule (s : List Char) : Bool :=
  (List.replicate 10 '-').isPrefixOf s || (List.replicate 10 '=').isPrefixOf s

/-- The text in front of the first end of a line with a row behind it. -/
def beforeRule : List Char → List Char
  | [] => []
  | c :: s => if (c == '\n' || c == '\r') && startsRule s then [] else c :: beforeRule s

/-- The text in front of its first line that starts with ten hyphens or ten equals signs, as it is. -/
def front (t : List Char) : List Char := if startsRule t then [] else beforeRule t

theorem exists_rule {s : List Char} (h : startsRule s = true) : ∃ w x, IsRule w ∧ s = w ++ x := by
  simp only [startsRule, Bool.or_eq_true, List.isPrefixOf_iff_prefix] at h
  rcases h with ⟨x, rfl⟩ | ⟨x, rfl⟩
  · exact ⟨_, x, Or.inl rfl, rfl⟩
  · exact ⟨_, x, Or.inr rfl, rfl⟩

theorem beforeRule_cases (t : List Char) :
    beforeRule t = t ∨ ∃ c x, (c = '\n' ∨ c = '\r') ∧ startsRule x = true ∧ t = beforeRule t ++ c :: x := by
  induction t with
  | nil => exact Or.inl rfl
  | cons c s ih =>
    rw [beforeRule]
    split
    · next stop =>
      simp only [Bool.and_eq_true, Bool.or_eq_true, beq_iff_eq] at stop
      exact Or.inr ⟨c, s, stop.1, stop.2, rfl⟩
    · rcases ih with e | ⟨d, x, ends, rule, e⟩
      · exact Or.inl (by rw [e])
      · exact Or.inr ⟨d, x, ends, rule, congrArg (c :: ·) e⟩

/-- A text is cut at its first line that starts with a row, if nothing in front of that is a separator. -/
theorem cutAt_front (t : List Char) : CutAt (front t) t := by
  unfold front
  split
  · next starts =>
    obtain ⟨w, x, rule, rfl⟩ := exists_rule starts
    obtain ⟨line, more, first, separator⟩ := lines_rule rule x
    exact ⟨[], lines (w ++ x), Or.inl rfl, rfl, by simp [first, separator]⟩
  · rcases beforeRule_cases t with e | ⟨c, x, ends, starts, e⟩
    · exact ⟨[], [], Or.inl rfl, by simp [e], by simp⟩
    · generalize beforeRule t = p at e ⊢
      subst e
      obtain ⟨w, x, rule, rfl⟩ := exists_rule starts
      rcases ends with rfl | rfl
      · exact cutAt_of_stops p (Follows.stops (Or.inr ⟨w, x, rule, rfl⟩))
      · have apart : IsApart '\r' (w ++ x) := by
          rintro -
          rcases rule with rfl | rfl <;> simp [List.replicate_succ]
        have unified : unifyNewlines (p ++ '\r' :: (w ++ x)) = unifyNewlines p ++ '\n' :: unifyNewlines (w ++ x) := by
          rw [unifyNewlines_append (by decide), unifyNewlines_cons apart]
          rfl
        obtain ⟨last, hlast, behind⟩ := lines_append_newline (unifyNewlines p)
        obtain ⟨line, more, first, separator⟩ := lines_rule rule x
        refine ⟨last, lines (w ++ x), hlast, ?_, by simp [first, separator]⟩
        rw [← lines_unifyNewlines, unified, behind, lines_unifyNewlines, lines_unifyNewlines]

/-- An object of JSON is the solution, at the end of the output or in front of a separator line. Whatever the output is,
the text in front of its first line that starts with ten hyphens or ten equals signs says by itself whether there is a
solution, if it is laid out as JSON is. The solution is the object that it is, there is none if it is anything else, and
an integer in it that has too many digits cannot be read. -/
theorem parse_objects (t : List Char) :
    (∀ l es r, Json.read t = .ok (.dict l es) → (∀ c ∈ t, IsOrdinary c) → Follows r →
      parse (t ++ r) = .ok (some es)) ∧
    (LaidOut (front t) →
      (∀ es, parse t = .ok (some es) ↔ ∃ l, Json.read (front t) = .ok (.dict l es)) ∧
      (parse t = .ok none ↔ (∀ l es, Json.read (front t) ≠ .ok (.dict l es)) ∧
        ∀ digits, Json.read (front t) ≠ .error (.tooLong digits)) ∧
      ∀ f, parse t = .error f ↔
        ∃ digits, Json.read (front t) = .error (.tooLong digits) ∧ f = .content (.integerUnreadable digits)) := by
  refine ⟨fun l es r h ordinary follows => parse_object h ordinary follows.stops, fun laid => ?_⟩
  rw [parse_of_cut (cutAt_front t) laid]
  cases Json.read (front t) with
  | ok v => cases v <;> simp [found]
  | error fault => cases fault <;> simp [found, eq_comm]

/-- A solution on two lines. -/
def linedText : List Char := ['{', '"', 'x', '"', ':', '\r', '\n', '3', '}']

/-- An array in front of a separator line and a solution. -/
def arrayText : List Char := ['\t', '[', '3', ']', ' ', '\r'] ++ (List.replicate 11 '=' ++ ['\n', '{', '}'])

theorem parse_linedText :
    parse (linedText ++ '\n' :: (List.replicate 10 '-' ++ ['\n', 'x'])) = .ok (some [(.str "x", .int 3)]) ∧
      parse arrayText = .ok none := by
  constructor
  · apply (parse_objects linedText).1 none
    · with_unfolding_all rfl
    · simp [linedText, IsOrdinary, isLineBoundary]
    · exact Or.inr ⟨List.replicate 10 '-', ['\n', 'x'], Or.inl rfl, rfl⟩
  · have part : front arrayText = ['\t', '[', '3', ']', ' '] := by decide +kernel
    have array : Json.read ['\t', '[', '3', ']', ' '] = .ok (.ofList [.int 3]) := by with_unfolding_all rfl
    have laid : LaidOut (front arrayText) := by
      rw [part]
      refine ⟨by simp [IsOrdinary, isLineBoundary], by decide, ?_, ?_⟩ <;> (rintro c ⟨⟩; decide)
    refine ((parse_objects arrayText).2 laid).2.1.2 ?_
    rw [part, array]
    exact ⟨by rintro l es ⟨⟩, by rintro digits ⟨⟩⟩

/-- A solution that holds a line separator. -/
def separatorText : List Char := ['{', '"', 'x', '"', ':', '"', '\u2028', '"', '}']

/-- A form feed between two tokens, a no-break space in front and a separator that is indented. -/
def looseTexts : List (List Char) :=
  [['{', '"', 'x', '"', ':', '\x0c', '3', '}'], ['\xa0', '{', '"', 'x', '"', ':', '3', '}'],
    ['{', '"', 'x', '"', ':', '3', '}', '\n', ' '] ++ List.replicate 10 '-']

/-- A line separator can stand between quotes, but the text is taken apart there. Other texts are taken for an object
which they are not. -/
theorem parse_lineSeparator :
    (Json.read separatorText = .ok (.dict none [(.str "x", .str "\u2028")]) ∧ parse separatorText = .ok none) ∧
      ∀ t ∈ looseTexts, (∃ fault, Json.read (front t) = .error (.malformed fault)) ∧
        parse t = .ok (some [(.str "x", .int 3)]) := by
  have part : firstPart separatorText = ['{', '"', 'x', '"', ':', '"', '\n', '"', '}'] := by decide +kernel
  have refused : ∃ fault, Json.read ['{', '"', 'x', '"', ':', '"', '\n', '"', '}'] = .error (.malformed fault) :=
    ⟨_, by with_unfolding_all rfl⟩
  obtain ⟨fault, refused⟩ := refused
  refine ⟨⟨by with_unfolding_all rfl, by rw [parse_eq_found, part, refused]; rfl⟩, ?_⟩
  have object (layout : List Char) (e : firstPart layout = ['{', '"', 'x', '"', ':', '\n', '3', '}'] ∨
      firstPart layout = ['{', '"', 'x', '"', ':', '3', '}']) : parse layout = .ok (some [(.str "x", .int 3)]) := by
    rw [parse_eq_found]
    rcases e with e | e <;> rw [e] <;> with_unfolding_all rfl
  intro t ht
  simp only [looseTexts, List.mem_cons, List.not_mem_nil, or_false] at ht
  rcases ht with rfl | rfl | rfl
  · exact ⟨⟨_, by with_unfolding_all rfl⟩, object _ (Or.inl (by decide +kernel))⟩
  · exact ⟨⟨_, by with_unfolding_all rfl⟩, object _ (Or.inr (by decide +kernel))⟩
  · exact ⟨⟨_, by with_unfolding_all rfl⟩, object _ (Or.inr (by decide +kernel))⟩

end ZincModel.Solution
