import ZincModel.Proofs.CommandLine.Courses

/-!
# Answers of a run

What a run has put out can be told from its status, and its status from the verdict on the model: zero with the values
of the solution, one without, and two without any output (`run_answers`). With `--emit` it puts out the program that the
same command line without it gives to the solver, and starts no process.
-/

namespace ZincModel.CommandLine

variable {env : Environment} {o : Options} {path : String} {chance : Solver.Chance} {ending : Ending}

/-- The model file at the path holds this model, and it is evaluated to the verdict with what configuration there is. -/
def Evaluates (env : Environment) (o : Options) (path : String) (chance : Solver.Chance) (m : Model) (s : Store)
    (verdict : Bool) : Prop :=
  Model.ofFile env.files path {} = (.ok m, s) ∧
    ∃ c, configured env o = .ok c ∧ (Solver.evaluate s m o.solver c chance).result = .ok verdict

theorem fail_returned {explain : List Char → String} {noted : List Char} {calls : List Solver.Call} {f : Fault}
    {n : Option Nat} (h : (fail explain noted calls f).status = .ok n) :
    n = some 2 ∧ (fail explain noted calls f).output = [] := by
  unfold fail at h ⊢
  split at h
  · cases h
    refine ⟨rfl, ?_⟩
    split <;> rfl
  · cases h

@[simp] theorem calls_fail (explain : List Char → String) (noted : List Char) (calls : List Solver.Call) (f : Fault) :
    (fail explain noted calls f).calls = calls := by
  unfold fail
  split <;> rfl

namespace Course

/-- Every status that is returned is one of three. -/
theorem returned (h : Course env o path chance ending) {n : Option Nat} (returns : ending.status = .ok n) :
    n = some 0 ∨ n = some 1 ∨ n = some 2 ∧ ending.output = [] := by
  cases h with
  | unloaded => exact .inr (.inr (fail_returned returns))
  | unwritten => exact .inr (.inr (fail_returned returns))
  | emitted =>
    cases returns
    exact .inl rfl
  | unevaluated => exact .inr (.inr (fail_returned returns))
  | unsatisfiable =>
    cases returns
    exact .inr (.inl rfl)
  | satisfiable =>
    cases returns
    exact .inl rfl

/-- The verdict that a status is returned for. -/
theorem evaluates (h : Course env o path chance ending) (emit : o.emit = false) {n : Nat} (n_le : n ≤ 1)
    (returns : ending.status = .ok (some n)) : ∃ m s, Evaluates env o path chance m s (n == 0) := by
  have apart {explain : List Char → String} {noted : List Char} {calls : List Solver.Call} {f : Fault}
      (returns : (fail explain noted calls f).status = .ok (some n)) : False := by
    cases (fail_returned returns).1
    omega
  cases h with
  | unloaded => exact (apart returns).elim
  | unwritten => exact (apart returns).elim
  | emitted _ emitted =>
    rw [emit] at emitted
    cases emitted
  | unevaluated => exact (apart returns).elim
  | @unsatisfiable m s _ loaded _ result =>
    cases returns
    exact ⟨m, s, loaded, evaluate_eq_ok_iff.1 result⟩
  | @satisfiable m s _ _ _ loaded _ result =>
    cases returns
    exact ⟨m, s, loaded, evaluate_eq_ok_iff.1 result⟩

/-- What is put out for a verdict. -/
theorem of_evaluates (h : Course env o path chance ending) (emit : o.emit = false) {m : Model} {s : Store}
    {verdict : Bool} (evaluates : Evaluates env o path chance m s verdict) :
    if verdict then
      ending.status = .ok (some 0) ∧ ∃ entries text, chance.solution? = some entries ∧
        answers s m entries = .ok text ∧ ending.output = line "SAT".toList ++ line text
    else ending.status = .ok (some 1) ∧ ending.output = line "UNSAT".toList := by
  obtain ⟨loaded, configures⟩ := evaluates
  have evaluated := evaluate_eq_ok_iff.2 configures
  cases h with
  | unloaded unloaded =>
    rw [loaded] at unloaded
    cases unloaded
  | unwritten _ emitted =>
    rw [emit] at emitted
    cases emitted
  | emitted _ emitted =>
    rw [emit] at emitted
    cases emitted
  | unevaluated loaded' _ result =>
    rw [loaded] at loaded'
    cases loaded'
    rw [evaluated] at result
    cases result
  | unsatisfiable loaded' _ result =>
    rw [loaded] at loaded'
    cases loaded'
    rw [evaluated] at result
    cases result
    exact ⟨rfl, rfl⟩
  | satisfiable loaded' _ result solution said =>
    rw [loaded] at loaded'
    cases loaded'
    rw [evaluated] at result
    cases result
    exact ⟨rfl, _, _, solution, said, rfl⟩

/-- With `--emit` a model that is loaded is written as a program, unless an integer in it is too long, and no process is
started. -/
theorem of_emit (h : Course env o path chance ending) (emit : o.emit = true) {m : Model} {s : Store}
    (loaded : Model.ofFile env.files path {} = (.ok m, s)) :
    ending.calls = [] ∧
      (ending.status = .ok (some 0) ∧ Program.source s m = .ok ending.output ∨
        ending.status = .error (.content .integerUnwritable) ∧
          Program.source s m = .error (.content .integerUnwritable) ∧ ¬m.IsWritable s) := by
  cases h with
  | unloaded unloaded =>
    rw [loaded] at unloaded
    cases unloaded
  | unwritten loaded' _ program =>
    rw [loaded] at loaded'
    cases loaded'
    have loads := Model.ofFile_ends env.files path {}
    rw [loaded] at loads
    have writes := Program.source_ends loads.result.lawful
    rw [program] at writes
    obtain ⟨rfl, long⟩ := writes.fault
    exact ⟨rfl, .inr ⟨rfl, program, long⟩⟩
  | emitted loaded' _ program =>
    rw [loaded] at loaded'
    cases loaded'
    exact ⟨rfl, .inl ⟨rfl, program⟩⟩
  | unevaluated _ plain =>
    rw [emit] at plain
    cases plain
  | unsatisfiable _ plain =>
    rw [emit] at plain
    cases plain
  | satisfiable _ plain =>
    rw [emit] at plain
    cases plain

/-- The processes of a run are those of its evaluation, where there is one. -/
theorem calls_cases (h : Course env o path chance ending) :
    ending.calls = [] ∧ ((∃ f, (Model.ofFile env.files path {}).1 = .error f) ∨ o.emit = true) ∨
      ∃ m s, Model.ofFile env.files path {} = (.ok m, s) ∧ o.emit = false ∧
        ending.calls = (evaluate env o s m chance).calls := by
  cases h with
  | unloaded unloaded => exact .inl ⟨calls_fail _ _ _ _, .inl ⟨_, unloaded⟩⟩
  | unwritten _ emit => exact .inl ⟨calls_fail _ _ _ _, .inr emit⟩
  | emitted _ emit => exact .inl ⟨rfl, .inr emit⟩
  | unevaluated loaded plain => exact .inr ⟨_, _, loaded, plain, calls_fail _ _ _ _⟩
  | unsatisfiable loaded plain => exact .inr ⟨_, _, loaded, plain, rfl⟩
  | satisfiable loaded plain => exact .inr ⟨_, _, loaded, plain, rfl⟩

/-- A process that is started is given the program of the model that is loaded. -/
theorem source_of_call (h : Course env o path chance ending) {m : Model} {s : Store}
    (loaded : Model.ofFile env.files path {} = (.ok m, s)) {call : Solver.Call} (started : call ∈ ending.calls) :
    Program.source s m = .ok call.source := by
  rcases h.calls_cases with ⟨none, -⟩ | ⟨m', s', loaded', -, calls⟩
  · rw [none] at started
    cases started
  · cases loaded.symm.trans loaded'
    rw [calls] at started
    exact evaluate_calls started

end Course

/-- A run with a command line that is accepted. Without `--emit` the status is zero exactly for a satisfiable model, and
then its variables are listed with what the solution says of them; it is one exactly for an unsatisfiable model. Any
other status is two and goes with no output. With `--emit` a model that is loaded is not evaluated, and what is put out
is what is given to the solver, whatever comes of it, by a command line that differs in nothing else. -/
theorem run_answers {arguments : List String} (accepted : Options.ofWords arguments = .ok o) (env : Environment)
    (chance : Solver.Chance) :
    (o.emit = false →
      ((run env arguments chance).status = .ok (some 0) ↔ ∃ m s, Evaluates env o o.path chance m s true) ∧
      ((run env arguments chance).status = .ok (some 1) ↔ ∃ m s, Evaluates env o o.path chance m s false) ∧
      (∀ m s, Evaluates env o o.path chance m s true → ∃ entries text, chance.solution? = some entries ∧
        answers s m entries = .ok text ∧ (run env arguments chance).output = line "SAT".toList ++ line text) ∧
      (∀ m s, Evaluates env o o.path chance m s false →
        (run env arguments chance).output = line "UNSAT".toList)) ∧
    (∀ n, (run env arguments chance).status = .ok n →
      n = some 0 ∨ n = some 1 ∨ n = some 2 ∧ (run env arguments chance).output = []) ∧
    (o.emit = true → ∀ m s, Model.ofFile env.files o.path {} = (.ok m, s) →
      (run env arguments chance).calls = [] ∧
      ((run env arguments chance).status = .ok (some 0) ∨
        (run env arguments chance).status = .error (.content .integerUnwritable) ∧ ¬m.IsWritable s) ∧
      ∀ plain, Options.ofWords plain = .ok { o with emit := false } → ∀ chance',
        ∀ call ∈ (run env plain chance').calls,
          (run env arguments chance).status = .ok (some 0) ∧
            (run env arguments chance).output = call.source) := by
  rw [run_eq accepted env chance]
  have course := runOptions_course env o o.path chance
  refine ⟨fun emit => ?_, fun n => course.returned, fun emit m s loaded => ?_⟩
  · refine ⟨⟨course.evaluates emit (by omega), ?_⟩, ⟨course.evaluates emit (by omega), ?_⟩, ?_, ?_⟩
    · rintro ⟨m, s, evaluates⟩
      exact (course.of_evaluates emit evaluates).1
    · rintro ⟨m, s, evaluates⟩
      exact (course.of_evaluates emit evaluates).1
    · intro m s evaluates
      exact (course.of_evaluates emit evaluates).2
    · intro m s evaluates
      exact (course.of_evaluates emit evaluates).2
  · obtain ⟨calls, status⟩ := course.of_emit emit loaded
    refine ⟨calls, ?_, fun plain accepted' chance' call started => ?_⟩
    · rcases status with ⟨status, -⟩ | ⟨status, -, long⟩
      · exact .inl status
      · exact .inr ⟨status, long⟩
    · rw [run_eq accepted'] at started
      have given := (runOptions_course env _ _ chance').source_of_call loaded started
      rcases status with ⟨status, program⟩ | ⟨-, program, -⟩
      · exact ⟨status, Except.ok.inj (program.symm.trans given)⟩
      · rw [program] at given
        cases given

/-- An environment with an executable, and a model file for one variable `y`. -/
def smallEnvironment : Environment :=
  ⟨[("MINIZINC_PATH", "minizinc")],
    [(["m.yaml"], .file ("decision: [{name: y, type: int, domain: [0, 9]}]".toList.map fun c => UInt8.ofNat c.toNat)
      false)]⟩

/-- A process that finds a value for `y`. -/
def smallChance : Solver.Chance := { workspace := "/tmp/run", outcome := .finished 0 "" Solution.smallOutput }

theorem evaluates_small :
    ∃ m s, Evaluates smallEnvironment { model := some "m.yaml" } "m.yaml" smallChance m s true := by
  have sat : (Model.ofFile smallEnvironment.files "m.yaml" {}).1.map (fun m =>
      (Solver.evaluate (Model.ofFile smallEnvironment.files "m.yaml" {}).2 m "gecode" ⟨.str "minizinc", .null⟩
        smallChance).result == .ok true) = .ok true :=
    eq_of_beq (by decide +kernel)
  generalize loading : Model.ofFile smallEnvironment.files "m.yaml" {} = r at sat
  obtain ⟨m, loaded, sat⟩ := Except.map_eq_ok.1 sat
  obtain ⟨result, s⟩ := r
  cases loaded
  exact ⟨m, s, loading, _, rfl, eq_of_beq sat⟩

/-- The run on the small model ends with status zero. -/
theorem run_answers_small :
    Options.ofWords ["m.yaml"] = .ok { model := some "m.yaml" } ∧
      (run smallEnvironment ["m.yaml"] smallChance).status = .ok (some 0) :=
  ⟨rfl, ((run_answers rfl smallEnvironment smallChance).1 rfl).1.2 evaluates_small⟩

end ZincModel.CommandLine
