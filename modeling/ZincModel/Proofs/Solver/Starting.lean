import ZincModel.Proofs.Number.Rounding
import ZincModel.Proofs.Success
import ZincModel.Proofs.Value.Writable
import ZincModel.Solver.Starting

/-!
# What stops a process from being run

The operating system may have no pipes for a process or not start it (`Denied`), and the library that starts processes
gives up by itself for one of few reasons: a null character in a text, a time limit that is no number or cannot be added
to the clock, a time that cannot be waited for, bytes in a pipe that are no text (`Refuses`). These are all the reasons
(`Call.outcome_eq_refused`, `Call.outcome_eq_unstarted`). A process whose time is over had a time limit that can be
shown (`Call.isShort_of_timedOut`).
-/

namespace ZincModel

/-! ## Integers among the numbers -/

/-- An integer that is not beyond all finite numbers has few digits. -/
theorem Double.fits_of_ofInt? {n : Int} {x : Double} (h : ofInt? n = some x) : Integer.fits n = true := by
  have small : codeOfRatio n.natAbs 1 < infinityCode := by
    unfold ofInt? ofRatio ofCode at h
    split at h
    · next found =>
      split at found
      · assumption
      · cases found
    · cases h
  by_cases zero : n.natAbs = 0
  · rw [Int.natAbs_eq_zero.1 zero]
    decide +kernel
  obtain ⟨t, top⟩ := exists_isTop zero Nat.one_ne_zero
  rw [codeOfRatio_eq zero Nat.one_ne_zero top] at small
  have exponent : t ≤ 1026 := by
    have factor : (max (t - 53) (-1074) + 1074).toNat < 2047 :=
      Nat.lt_of_mul_lt_mul_right (Nat.lt_of_le_of_lt (Nat.le_add_right _ _) small)
    omega
  have below : n.natAbs < 2 ^ t.toNat := by
    have below := (below_iff (a := t.toNat) (b := (-t).toNat) (by omega)).1 top.below
    have power := Nat.one_le_two_pow (n := (-t).toNat)
    rw [Nat.one_mul] at below
    exact Nat.lt_of_le_of_lt (Nat.le_mul_of_pos_right _ power) below
  have few : t.toNat ≤ Integer.digitLimit := by
    unfold Integer.digitLimit
    omega
  unfold Integer.fits
  generalize Integer.digitLimit = limit at few
  have digits : 2 ^ t.toNat ≤ 10 ^ limit :=
    Nat.le_trans (Nat.pow_le_pow_right (by decide) few) (Nat.pow_le_pow_left (by decide) _)
  exact decide_eq_true (Nat.lt_of_lt_of_le below digits)

namespace Solver

variable {call : Call} {h : Happening}

/-! ## Reasons -/

/-- One of the texts for the operating system has a null character. -/
def Call.HasNull (call : Call) : Prop := ∃ text ∈ call.texts, '\x00' ∈ text.toList

theorem Call.hasNull_iff : call.hasNull = true ↔ call.HasNull := by
  simp [hasNull, HasNull]

/-- The operating system has no pipes for the process, or does not start it. -/
inductive Denied (call : Call) : Happening → Nat → String → Option String → Prop
  | pipes (number : Nat) (reason : String) : Denied call (.unprepared number reason) number reason none
  | process (number : Nat) (reason : String) (path : Option String) : ¬call.HasNull →
    Denied call (.unstarted number reason path) number reason path

/-- The process is started, and its time is not over when it is first looked at how much of it is left. -/
inductive Awaited (call : Call) : Happening → Double → Option Exit → Prop
  | intro {begun now limit : Double} {exit : Option Exit} : ¬call.HasNull → call.timeout ≠ .null →
    limitOf call.timeout = .ok limit → (timeLeft begun limit now).compareInt? 0 ≠ some .lt →
    Awaited call (.started begun now exit) (timeLeft begun limit now) exit

/-- The process is started and ends by itself, in time if there is a limit. -/
inductive EndsItself (call : Call) : Happening → Exit → Prop
  | unlimited {begun now : Double} {exit : Exit} : ¬call.HasNull → call.timeout = .null →
    EndsItself call (.started begun now (some exit)) exit
  | inTime {h : Happening} {left : Double} {exit : Exit} : Awaited call h left (some exit) → left ≠ .nan →
    (milliseconds left).compareInt? pollLimit ≠ some .gt → EndsItself call h exit

/-- The library that starts processes gives up by itself, by what makes it do so. -/
inductive Refuses (call : Call) : Happening → Refusal → Prop
  /-- There is a null character in a text that the operating system would be given. -/
  | nullByte {h : Happening} : (∀ number reason, h ≠ .unprepared number reason) → call.HasNull →
    Refuses call h .nullByte
  /-- The time limit is no number. -/
  | notNumber {begun now : Double} {exit : Option Exit} : ¬call.HasNull → call.timeout ≠ .null →
    (∀ number x, call.timeout ≠ .float number x) → (∀ n, call.timeout ≠ .int n) → (∀ b, call.timeout ≠ .bool b) →
    Refuses call (.started begun now exit) (.notNumber call.timeout.fullKind)
  /-- The time limit is an integer beyond all finite numbers. -/
  | tooLarge {begun now : Double} {exit : Option Exit} {n : Int} : ¬call.HasNull → call.timeout = .int n →
    Double.ofInt? n = none → Refuses call (.started begun now exit) .tooLarge
  /-- The time that is left is not a number. -/
  | notANumber {h : Happening} {exit : Option Exit} : Awaited call h .nan exit → Refuses call h .notANumber
  /-- It has no end. -/
  | endless {h : Happening} {left : Double} {exit : Option Exit} : Awaited call h left exit →
    milliseconds left = .infinite false → Refuses call h (.overlong .endless)
  /-- The clock has no number for it. -/
  | beyondClock {h : Happening} {left : Double} {exit : Option Exit} : Awaited call h left exit →
    milliseconds left ≠ .infinite false → (milliseconds left).compareInt? clockLimit = some .gt →
    Refuses call h (.overlong .beyondClock)
  /-- The system call that waits takes no such number. -/
  | beyondPoll {h : Happening} {left : Double} {exit : Option Exit} : Awaited call h left exit →
    (milliseconds left).compareInt? clockLimit ≠ some .gt → (milliseconds left).compareInt? pollLimit = some .gt →
    Refuses call h (.overlong .beyondPoll)
  /-- What the process has written to its standard output is no text. -/
  | stdout {h : Happening} {exit : Exit} {cause : Text.Utf8.Malformed} : EndsItself call h exit →
    Text.Utf8.decode exit.stdout = .error cause → Refuses call h (.undecodable cause)
  /-- What it has written to its standard error is no text. -/
  | stderr {h : Happening} {exit : Exit} {text : List Char} {cause : Text.Utf8.Malformed} : EndsItself call h exit →
    Text.Utf8.decode exit.stdout = .ok text → Text.Utf8.decode exit.stderr = .error cause →
    Refuses call h (.undecodable cause)

/-! ## All reasons -/

theorem Exit.outcome_eq_refused {exit : Exit} {cause : Refusal} :
    exit.outcome = .refused cause ↔ ∃ place, cause = .undecodable place ∧
      (Text.Utf8.decode exit.stdout = .error place ∨
        ∃ text, Text.Utf8.decode exit.stdout = .ok text ∧ Text.Utf8.decode exit.stderr = .error place) := by
  unfold outcome
  cases Text.Utf8.decode exit.stdout with
  | error place => simp [eq_comm]
  | ok text => cases Text.Utf8.decode exit.stderr <;> simp [eq_comm]

theorem Exit.outcome_ne_unstarted (exit : Exit) (number : Nat) (reason : String) (path : Option String) :
    exit.outcome ≠ .unstarted number reason path := by
  unfold outcome
  split <;> simp

/-- What is above the limit of the clock is above that of the system call. -/
theorem above_pollLimit {ms : Double} (h : ms.compareInt? clockLimit = some .gt) :
    ms.compareInt? pollLimit = some .gt := by
  cases ms with
  | nan => cases h
  | infinite negative => exact h
  | finite negative code =>
    unfold Double.compareInt? at h ⊢
    have positive : ∀ n, 0 < (twoTo n : Int) := fun n => Int.natCast_pos.2 (Nat.two_pow_pos n)
    rw [Option.some.injEq, compare_gt_iff_gt] at h ⊢
    refine Int.lt_trans (Int.mul_lt_mul_of_pos_right ?_ (positive 1074)) h
    decide

theorem overlong?_eq_some {ms : Double} {cause : Overlong} :
    overlong? ms = some cause ↔
      cause = .endless ∧ ms = .infinite false ∨
        cause = .beyondClock ∧ ms ≠ .infinite false ∧ ms.compareInt? clockLimit = some .gt ∨
        cause = .beyondPoll ∧ ms.compareInt? clockLimit ≠ some .gt ∧ ms.compareInt? pollLimit = some .gt := by
  unfold overlong?
  by_cases endless : ms = .infinite false
  · subst endless
    simp [Double.compareInt?, eq_comm]
  · by_cases beyond : ms.compareInt? clockLimit = some .gt
    · simp [endless, beyond, above_pollLimit beyond, eq_comm]
    · by_cases above : ms.compareInt? pollLimit = some .gt <;> simp [endless, beyond, above, eq_comm]

/-- A time is waited for unless it is not a number or too long. -/
theorem overlong?_eq_none {ms : Double} : overlong? ms = none ↔ ms.compareInt? pollLimit ≠ some .gt := by
  unfold overlong?
  split_ifs <;> simp_all

theorem limitOf_eq_error {timeout : Value} (limited : timeout ≠ .null) {cause : Refusal} :
    limitOf timeout = .error cause ↔
      cause = .notNumber timeout.fullKind ∧ (∀ number x, timeout ≠ .float number x) ∧ (∀ n, timeout ≠ .int n) ∧
          (∀ b, timeout ≠ .bool b) ∨
        cause = .tooLarge ∧ ∃ n, timeout = .int n ∧ Double.ofInt? n = none := by
  have truth : ∀ b : Bool, (Double.ofInt? (if b then 1 else 0)).isSome = true := by decide +kernel
  cases timeout with
  | null => exact (limited rfl).elim
  | int n => cases e : Double.ofInt? n <;> simp [limitOf, limitOf.ofInt, e, eq_comm]
  | bool b =>
    obtain ⟨x, e⟩ := Option.isSome_iff_exists.1 (truth b)
    simp [limitOf, limitOf.ofInt, e]
  | _ => simp [limitOf, eq_comm]

theorem isShort_of_limitOf {timeout : Value} {limit : Double} (h : limitOf timeout = .ok limit) :
    timeout.isShort = true := by
  cases timeout with
  | int n =>
    cases e : Double.ofInt? n with
    | none => simp [limitOf, limitOf.ofInt, e] at h
    | some x => exact Double.fits_of_ofInt? e
  | list | tuple | set | dict => cases h
  | _ => rfl

/-- What comes of a process with a time limit, once it is started and its time is not over at once. -/
theorem waits_eq_error {left : Double} {cause : Refusal} :
    waits left = .error cause ↔ left.compareInt? 0 ≠ some .lt ∧
      (cause = .notANumber ∧ left = .nan ∨ ∃ c, cause = .overlong c ∧ overlong? (milliseconds left) = some c) := by
  have nothing : overlong? (milliseconds .nan) = none := by decide +kernel
  unfold waits
  by_cases past : left.compareInt? 0 = some .lt
  · simp [past]
  · by_cases nan : left = .nan
    · simp [nan, nothing, eq_comm, Double.compareInt?]
    · cases overlong? (milliseconds left) <;> simp [past, nan, eq_comm]

theorem waits_eq_true {left : Double} :
    waits left = .ok true ↔ left.compareInt? 0 ≠ some .lt ∧ left ≠ .nan ∧
      (milliseconds left).compareInt? pollLimit ≠ some .gt := by
  unfold waits
  rw [← overlong?_eq_none]
  by_cases past : left.compareInt? 0 = some .lt
  · simp [past]
  · by_cases nan : left = .nan
    · simp [nan, Double.compareInt?]
    · cases overlong? (milliseconds left) <;> simp [past, nan]

section Numbers

variable (number : Nat) (reason : String) (path : Option String)

theorem Outcome.ofNumber_ne_refused (cause : Refusal) : ofNumber number reason path ≠ .refused cause := by
  unfold ofNumber
  split_ifs <;> simp

theorem Outcome.ofNumber_ne_timedOut : ofNumber number reason path ≠ .timedOut := by
  unfold ofNumber
  split_ifs <;> simp

theorem Outcome.ofNumber_eq_unstarted {n : Nat} {r : String} {p : Option String} :
    ofNumber number reason path = .unstarted n r p ↔ number ∉ [1, 2, 8, 13] ∧ n = number ∧ r = reason ∧ p = path := by
  unfold ofNumber
  by_cases missing : number = 2
  · simp [missing]
  · by_cases forbidden : number = 1 ∨ number = 13
    · rcases forbidden with rfl | rfl <;> simp
    · by_cases foreign : number = 8
      · simp [foreign]
      · simp_all [eq_comm]

end Numbers

/-- What comes of a process that is started with a time limit. -/
theorem afterStart_limited {timeout : Value} (limited : timeout ≠ .null) (begun now : Double) (exit : Option Exit) :
    afterStart timeout begun now exit =
      match limitOf timeout >>= fun limit => waits (timeLeft begun limit now) with
      | .error cause => some (.refused cause)
      | .ok false => some .timedOut
      | .ok true => some ((exit.map Exit.outcome).getD .timedOut) := by
  cases timeout with
  | null => exact (limited rfl).elim
  | _ => rfl

/-- The library gives up on a process that is started with a time limit. -/
theorem afterStart_eq_refused {timeout : Value} (limited : timeout ≠ .null) {begun now : Double} {exit : Option Exit}
    {cause : Refusal} :
    afterStart timeout begun now exit = some (.refused cause) ↔
      limitOf timeout = .error cause ∨ ∃ limit, limitOf timeout = .ok limit ∧
        (waits (timeLeft begun limit now) = .error cause ∨
          waits (timeLeft begun limit now) = .ok true ∧ ∃ e, exit = some e ∧ e.outcome = .refused cause) := by
  rw [afterStart_limited limited]
  cases limitOf timeout with
  | error other => simp
  | ok limit =>
    rw [Except.ok_bind]
    cases waiting : waits (timeLeft begun limit now) with
    | error other => simp [waiting]
    | ok left =>
      cases left with
      | false => simp [waiting]
      | true => cases exit <;> simp [waiting]

/-- Once a process is started the operating system has no more say. -/
theorem afterStart_ne_unstarted (timeout : Value) (begun now : Double) (exit : Option Exit) {number : Nat}
    {reason : String} {path : Option String} :
    afterStart timeout begun now exit ≠ some (.unstarted number reason path) := by
  have ended : ∀ e : Exit, e.outcome ≠ .unstarted number reason path := fun e => e.outcome_ne_unstarted _ _ _
  by_cases unlimited : timeout = .null
  · subst unlimited
    cases exit with
    | none => simp [afterStart]
    | some e => simpa [afterStart] using ended e
  · rw [afterStart_limited unlimited]
    split
    · simp
    · simp
    · cases exit with
      | none => simp
      | some e => simpa using ended e

theorem Call.outcome_started (proper : ¬call.HasNull) (begun now : Double) (exit : Option Exit) :
    call.outcome (.started begun now exit) = afterStart call.timeout begun now exit :=
  if_neg fun null => proper (hasNull_iff.1 null)

/-- All that can come of starting a process. A null character is found once there are pipes, before the operating
system is asked for the process. -/
theorem Call.outcome_cases (call : Call) (h : Happening) :
    (∃ number reason, h = .unprepared number reason ∧ call.outcome h = some (.ofNumber number reason none)) ∨
      (∀ number reason, h ≠ .unprepared number reason) ∧ call.HasNull ∧ call.outcome h = some (.refused .nullByte) ∨
      ¬call.HasNull ∧
        ((∃ number reason path, h = .unstarted number reason path ∧
            call.outcome h = some (.ofNumber number reason path)) ∨
          ∃ begun now exit, h = .started begun now exit ∧
            call.outcome h = afterStart call.timeout begun now exit) := by
  cases h with
  | unprepared number reason => exact .inl ⟨number, reason, rfl, rfl⟩
  | unstarted number reason path =>
    by_cases null : call.HasNull
    · exact .inr (.inl ⟨by simp, null, if_pos (hasNull_iff.2 null)⟩)
    · exact .inr (.inr ⟨null, .inl ⟨number, reason, path, rfl, if_neg fun e => null (hasNull_iff.1 e)⟩⟩)
  | started begun now exit =>
    by_cases null : call.HasNull
    · exact .inr (.inl ⟨by simp, null, if_pos (hasNull_iff.2 null)⟩)
    · exact .inr (.inr ⟨null, .inr ⟨begun, now, exit, rfl, outcome_started null begun now exit⟩⟩)

/-- The time that is left of a process is not a number, or too long. -/
theorem Awaited.outcome_eq {left : Double} {exit : Option Exit} {cause : Refusal} (awaited : Awaited call h left exit)
    (stopped : cause = .notANumber ∧ left = .nan ∨
      ∃ c, cause = .overlong c ∧ overlong? (milliseconds left) = some c) :
    call.outcome h = some (.refused cause) := by
  obtain ⟨proper, limited, added, left⟩ := awaited
  rw [Call.outcome_started proper]
  exact (afterStart_eq_refused limited).2 (.inr ⟨_, added, .inl (waits_eq_error.2 ⟨left, stopped⟩)⟩)

/-- A process that ends by itself has its own outcome. -/
theorem EndsItself.outcome_eq {exit : Exit} (ends : EndsItself call h exit) : call.outcome h = some exit.outcome := by
  cases ends with
  | unlimited proper unlimited =>
    rw [Call.outcome_started proper, unlimited]
    rfl
  | inTime awaited number short =>
    obtain ⟨proper, limited, added, left⟩ := awaited
    rw [Call.outcome_started proper, afterStart_limited limited, added, Except.ok_bind,
      waits_eq_true.2 ⟨left, number, short⟩]
    rfl

theorem EndsItself.refuses {exit : Exit} {cause : Refusal} (ends : EndsItself call h exit)
    (refused : exit.outcome = .refused cause) : Refuses call h cause := by
  obtain ⟨place, rfl, stdout | ⟨text, stdout, stderr⟩⟩ := Exit.outcome_eq_refused.1 refused
  · exact .stdout ends stdout
  · exact .stderr ends stdout stderr

/-- The library gives up on a process that is started. -/
theorem refuses_of_afterStart {begun now : Double} {exit : Option Exit} {cause : Refusal} (proper : ¬call.HasNull)
    (refused : afterStart call.timeout begun now exit = some (.refused cause)) :
    Refuses call (.started begun now exit) cause := by
  by_cases unlimited : call.timeout = .null
  · rw [unlimited, afterStart] at refused
    obtain ⟨e, rfl, ended⟩ := Option.map_eq_some_iff.1 refused
    exact (EndsItself.unlimited proper unlimited).refuses ended
  rcases (afterStart_eq_refused unlimited).1 refused with unadded | ⟨limit, added, waited⟩
  · rcases (limitOf_eq_error unlimited).1 unadded with ⟨rfl, float, int, bool⟩ | ⟨rfl, n, large, beyond⟩
    · exact .notNumber proper unlimited float int bool
    · exact .tooLarge proper large beyond
  · have awaited (left : (timeLeft begun limit now).compareInt? 0 ≠ some .lt) :
        Awaited call (.started begun now exit) (timeLeft begun limit now) exit :=
      .intro proper unlimited added left
    rcases waited with stopped | ⟨waiting, e, rfl, ended⟩
    · obtain ⟨left, ⟨rfl, nan⟩ | ⟨c, rfl, long⟩⟩ := waits_eq_error.1 stopped
      · have awaited := awaited left
        rw [nan] at awaited
        exact .notANumber awaited
      · rcases overlong?_eq_some.1 long with ⟨rfl, endless⟩ | ⟨rfl, ends, beyond⟩ | ⟨rfl, within, beyond⟩
        · exact .endless (awaited left) endless
        · exact .beyondClock (awaited left) ends beyond
        · exact .beyondPoll (awaited left) within beyond
    · obtain ⟨left, number, short⟩ := waits_eq_true.1 waiting
      exact (EndsItself.inTime (awaited left) number short).refuses ended

/-- **All reasons** for which the library gives up by itself. -/
theorem Call.outcome_eq_refused {cause : Refusal} :
    call.outcome h = some (.refused cause) ↔ Refuses call h cause := by
  constructor
  · intro refused
    rcases call.outcome_cases h with ⟨number, reason, rfl, e⟩ | ⟨prepared, null, e⟩ |
      ⟨proper, ⟨number, reason, path, rfl, e⟩ | ⟨begun, now, exit, rfl, e⟩⟩ <;> rw [e] at refused
    · exact (Outcome.ofNumber_ne_refused _ _ _ _ (Option.some.inj refused)).elim
    · cases refused
      exact .nullByte prepared null
    · exact (Outcome.ofNumber_ne_refused _ _ _ _ (Option.some.inj refused)).elim
    · exact refuses_of_afterStart proper refused
  · intro refuses
    cases refuses with
    | nullByte prepared null =>
      rcases call.outcome_cases h with ⟨number, reason, unprepared, -⟩ | ⟨-, -, e⟩ | ⟨proper, -⟩
      · exact (prepared number reason unprepared).elim
      · exact e
      · exact (proper null).elim
    | notNumber proper unlimited float int bool =>
      rw [outcome_started proper]
      exact (afterStart_eq_refused unlimited).2 (.inl ((limitOf_eq_error unlimited).2 (.inl ⟨rfl, float, int, bool⟩)))
    | tooLarge proper large beyond =>
      have unlimited : call.timeout ≠ .null := by simp [large]
      rw [outcome_started proper]
      exact (afterStart_eq_refused unlimited).2 (.inl ((limitOf_eq_error unlimited).2 (.inr ⟨rfl, _, large, beyond⟩)))
    | notANumber awaited => exact awaited.outcome_eq (.inl ⟨rfl, rfl⟩)
    | endless awaited endless =>
      exact awaited.outcome_eq (.inr ⟨_, rfl, overlong?_eq_some.2 (.inl ⟨rfl, endless⟩)⟩)
    | beyondClock awaited ends beyond =>
      exact awaited.outcome_eq (.inr ⟨_, rfl, overlong?_eq_some.2 (.inr (.inl ⟨rfl, ends, beyond⟩))⟩)
    | beyondPoll awaited within beyond =>
      exact awaited.outcome_eq (.inr ⟨_, rfl, overlong?_eq_some.2 (.inr (.inr ⟨rfl, within, beyond⟩))⟩)
    | stdout ends undecodable =>
      rw [ends.outcome_eq, Exit.outcome_eq_refused.2 ⟨_, rfl, .inl undecodable⟩]
    | stderr ends decodable undecodable =>
      rw [ends.outcome_eq, Exit.outcome_eq_refused.2 ⟨_, rfl, .inr ⟨_, decodable, undecodable⟩⟩]

/-- All reasons for which the operating system does not start a process, those apart that have outcomes of their own. -/
theorem Call.outcome_eq_unstarted {number : Nat} {reason : String} {path : Option String} :
    call.outcome h = some (.unstarted number reason path) ↔
      Denied call h number reason path ∧ number ∉ [1, 2, 8, 13] := by
  constructor
  · intro unstarted
    rcases call.outcome_cases h with ⟨n, r, rfl, e⟩ | ⟨-, -, e⟩ | ⟨proper, ⟨n, r, p, rfl, e⟩ | ⟨begun, now, exit, rfl, e⟩⟩
      <;> rw [e] at unstarted
    · obtain ⟨other, rfl, rfl, rfl⟩ := (Outcome.ofNumber_eq_unstarted n r none).1 (Option.some.inj unstarted)
      exact ⟨.pipes _ _, other⟩
    · cases unstarted
    · obtain ⟨other, rfl, rfl, rfl⟩ := (Outcome.ofNumber_eq_unstarted n r p).1 (Option.some.inj unstarted)
      exact ⟨.process _ _ _ proper, other⟩
    · exact (afterStart_ne_unstarted _ _ _ _ unstarted).elim
  · rintro ⟨denied, other⟩
    have told := (Outcome.ofNumber_eq_unstarted number reason path).2 ⟨other, rfl, rfl, rfl⟩
    cases denied with
    | pipes => exact congrArg some told
    | process _ _ _ proper => rw [outcome, if_neg fun null => proper (hasNull_iff.1 null), told]

/-- A process whose time is over had a time limit with a text that can be shown. -/
theorem Call.isShort_of_timedOut (timedOut : call.outcome h = some .timedOut) : call.timeout.isShort = true := by
  rcases call.outcome_cases h with ⟨number, reason, rfl, e⟩ | ⟨-, -, e⟩ |
    ⟨-, ⟨number, reason, path, rfl, e⟩ | ⟨begun, now, exit, rfl, e⟩⟩ <;> rw [e] at timedOut
  · exact (Outcome.ofNumber_ne_timedOut _ _ _ (Option.some.inj timedOut)).elim
  · cases timedOut
  · exact (Outcome.ofNumber_ne_timedOut _ _ _ (Option.some.inj timedOut)).elim
  · by_cases unlimited : call.timeout = .null
    · rw [unlimited]
      rfl
    · rw [afterStart_limited unlimited] at timedOut
      cases added : limitOf call.timeout with
      | error cause => simp [added] at timedOut
      | ok limit => exact isShort_of_limitOf added

end Solver

end ZincModel
