import ZincModel.Proofs.CommandLine.Courses

/-!
# Failures of a run

A run fails where the model is not loaded, where it has no program that could be written, or where the configuration or
the evaluation fails. Most failures end it with a complaint and status two. The others are not handled, and of these it
is known where they come from (`Uncaught`); without a failure the status is zero or one (`run_failures`). A complaint is
one text, but it may have several lines: it tells on what the YAML library says, what the solver has written to its
standard error, and names as they are given.
-/

namespace ZincModel.CommandLine

variable {env : Environment} {o : Options} {chance : Solver.Chance}

/-- With these options a stage of the run fails. -/
inductive Fails (env : Environment) (o : Options) (chance : Solver.Chance) : Fault → Prop
  | loading {f : Fault} : (Model.ofFile env.files o.path {}).1 = .error f → Fails env o chance f
  | writing {m : Model} {s : Store} {f : Fault} : Model.ofFile env.files o.path {} = (.ok m, s) → o.emit = true →
    Program.source s m = .error f → Fails env o chance f
  | evaluating {m : Model} {s : Store} {f : Fault} : Model.ofFile env.files o.path {} = (.ok m, s) → o.emit = false →
    (evaluate env o s m chance).result = .error f → Fails env o chance f

/-- The faults that the program does not handle, by what they come from. -/
inductive Uncaught (env : Environment) (o : Options) (chance : Solver.Chance) : Fault → Prop
  /-- The path, the bytes or the text of the model file. -/
  | model {f : Fault} : Model.Unloaded env.files o.path ({} : Store).nextNumber f → Uncaught env o chance f
  /-- An integer in the program with too many digits. -/
  | program {m : Model} {s : Store} : Model.ofFile env.files o.path {} = (.ok m, s) → ¬m.IsWritable s →
    Uncaught env o chance (.content .integerUnwritable)
  /-- The text of the configuration file, or the time limit in it. -/
  | configuration {f : Fault} : o.emit = false → o.minizinc = "" → Config.Unresolved env f → Uncaught env o chance f
  /-- An executable in the configuration file that is no text. -/
  | executable {c : Config} : o.emit = false → configured env o = .ok c → (∀ t, c.executable ≠ .str t) →
    Uncaught env o chance (.shape (.notText 0 c.executable.fullKind))
  /-- The library that starts processes. -/
  | process {cause : Solver.Refusal} : o.emit = false → chance.outcome = .refused cause →
    Uncaught env o chance cause.fault
  /-- An integer in the solution with too many digits. -/
  | solution {stderr : String} {output : Option Entry} {n : Nat} : o.emit = false →
    chance.outcome = .finished 0 stderr output → HasRun (Solution.firstPart (Solution.artifactText output)) n →
    Uncaught env o chance (.content (.integerUnreadable n))

/-- Where a stage fails, the program complains about the fault itself, or it comes from one of these things. -/
theorem Fails.cases {f : Fault} (h : Fails env o chance f) : isHandled f = true ∨ Uncaught env o chance f := by
  have loads := Model.ofFile_ends env.files o.path {}
  cases h with
  | loading unloaded =>
    rw [unloaded] at loads
    exact loads.fault.imp_right .model
  | writing loaded emit unwritten =>
    rw [loaded] at loads
    have program := Program.source_ends loads.result.lawful
    rw [unwritten] at program
    obtain ⟨rfl, long⟩ := program.fault
    exact .inr (.program loaded long)
  | @evaluating m s f loaded emit failed =>
    rw [loaded] at loads
    have configures := configured_ends env o
    rcases evaluate_configured env o s m chance with ⟨f', none, result, -⟩ | ⟨c, some, result, -⟩
    · rw [none] at configures
      rw [result] at failed
      cases failed
      rcases configures.fault with handled | ⟨unset, unresolved⟩
      · exact .inl handled
      · exact .inr (.configuration emit unset unresolved)
    · rw [some] at configures
      have ends := Solver.evaluateProblem_ends s (Solver.problemOf s m) o.solver configures.result chance
      have stopped : (Solver.evaluateProblem s (Solver.problemOf s m) o.solver c chance).result = .error f :=
        result.symm.trans failed
      rw [stopped] at ends
      rcases ends.fault with handled | unconcluded
      · exact .inl handled
      · cases unconcluded with
        | program unwritten =>
          have program := Program.source_ends loads.result.lawful
          rw [show Program.source s m = .error f from unwritten] at program
          obtain ⟨rfl, long⟩ := program.fault
          exact .inr (.program loaded long)
        | executable noText => exact .inr (.executable emit some noText)
        | refused gives => exact .inr (.process emit gives)
        | solution finished digits => exact .inr (.solution emit finished digits)

theorem shown_nil (o : Options) : o.shown [] = [] := by
  unfold Options.shown
  cases o.verbose <;> rfl

/-- A run in which a stage fails ends by the fault of this stage, after what was noted till then. -/
theorem Fails.ending {f : Fault} (h : Fails env o chance f) :
    ∃ records calls, runOptions env o o.path chance = fail chance.explain (o.shown records) calls f := by
  unfold runOptions
  cases h with
  | loading unloaded =>
    refine ⟨[], [], ?_⟩
    rcases loaded : Model.ofFile env.files o.path {} with ⟨f' | m, s⟩
    · rw [loaded] at unloaded
      cases unloaded
      rw [shown_nil]
    · rw [loaded] at unloaded
      cases unloaded
  | writing loaded emit unwritten =>
    refine ⟨[], [], ?_⟩
    simp only [loaded, emit, unwritten, if_true, shown_nil]
  | @evaluating m s f loaded emit failed =>
    refine ⟨(evaluate env o s m chance).records, (evaluate env o s m chance).calls, ?_⟩
    simp only [loaded, emit, report, failed, Bool.false_eq_true, if_false]
    rfl

/-- A run with a command line that is accepted. Where a stage fails nothing is put out, and either there is one
complaint, behind what was noted, and status two, or the fault is not handled and comes from one of the things that get
past. Where none fails the status is zero or one. Whatever happens when the process is started, it is known when the
library that starts processes gives up. -/
theorem run_failures {arguments : List String} (accepted : Options.ofWords arguments = .ok o) (env : Environment)
    (chance : Solver.Chance) :
    (∀ f, Fails env o chance f →
      (run env arguments chance).output = [] ∧ ∃ records,
        isHandled f = true ∧ (run env arguments chance).status = .ok (some 2) ∧
            (run env arguments chance).errors =
              o.shown records ++ "error: ".toList ++ (f.message chance.explain).toList ++ ['\n'] ∨
          Uncaught env o chance f ∧ (run env arguments chance).status = .error f ∧
            (run env arguments chance).errors = o.shown records) ∧
      ((∀ f, ¬Fails env o chance f) →
        (run env arguments chance).status = .ok (some 0) ∨ (run env arguments chance).status = .ok (some 1)) ∧
      ∀ call ∈ (run env arguments chance).calls, ∀ (h : Solver.Happening) (cause : Solver.Refusal),
        call.outcome h = some (.refused cause) ↔ Solver.Refuses call h cause := by
  rw [run_eq accepted env chance]
  refine ⟨?_, ?_, fun call _ h cause => Solver.Call.outcome_eq_refused⟩
  · intro f fails
    obtain ⟨records, calls, ending⟩ := fails.ending
    rw [ending]
    unfold fail
    by_cases handled : isHandled f = true
    · rw [if_pos handled]
      refine ⟨rfl, records, .inl ⟨handled, rfl, ?_⟩⟩
      simp only [line, List.append_assoc]
    · rw [if_neg handled]
      exact ⟨rfl, records, .inr ⟨fails.cases.resolve_left handled, rfl, rfl⟩⟩
  · intro none
    have course := runOptions_course env o o.path chance
    revert course
    generalize runOptions env o o.path chance = ending
    intro course
    cases course with
    | unloaded unloaded => exact (none _ (.loading unloaded)).elim
    | unwritten loaded emit unwritten => exact (none _ (.writing loaded emit unwritten)).elim
    | emitted => exact .inl rfl
    | unevaluated loaded emit failed => exact (none _ (.evaluating loaded emit failed)).elim
    | unsatisfiable => exact .inr rfl
    | satisfiable => exact .inl rfl

/-- A process that cannot be started. -/
def idle : Solver.Chance := { workspace := "/tmp/run", outcome := .notFound }

/-- Without a model file nothing is put out. -/
theorem run_failures_missing :
    Options.ofWords ["m.yaml"] = .ok { model := some "m.yaml" } ∧ (run {} ["m.yaml"] idle).output = [] :=
  ⟨rfl, ((run_failures rfl {} idle).1 _ (.loading rfl)).1⟩

/-- A model file whose only byte is part of no text. -/
def strangeFiles : Files := [(["m.yaml"], .file [0xff] false)]

/-- A model file that ends inside of a list. -/
def unclosedFiles : Files := [(["m.yaml"], .file [0x5b] false)]

/-- What the YAML library says of it. -/
def unclosedComplaint : String :=
  "while parsing a flow node\nexpected the node content, but found '<stream end>'\n" ++
    "  in \"<unicode string>\", line 1, column 2:\n    [\n     ^"

/-- Bytes that are no text are not complained about, and the complaint about a text that is no YAML has five lines. -/
theorem run_strangeFiles :
    Options.ofWords ["m.yaml"] = .ok { model := some "m.yaml" } ∧
      (∃ f, (run ⟨[], strangeFiles⟩ ["m.yaml"] idle).status = .error f) ∧
      (run ⟨[], unclosedFiles⟩ ["m.yaml"] { idle with explain := fun _ => unclosedComplaint }).errors =
        ("error: Invalid YAML model: " ++ unclosedComplaint ++ "\n").toList ∧
      ((unclosedComplaint ++ "\n").toList.filter (· == '\n')).length = 5 := by
  refine ⟨rfl, ⟨_, rfl⟩, ?_, by decide +kernel⟩
  decide +kernel

end ZincModel.CommandLine
