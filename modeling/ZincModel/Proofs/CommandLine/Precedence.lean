import ZincModel.Proofs.CommandLine.Answers

/-!
# What counts more than the environment

An executable among the options leaves nothing to the environment but the model file: a run is the same in all
environments in which this file is the same, and the process that it starts is told by the options alone. Without one
the environment configures the process, but a time limit among the options counts more (`run_overrides`).
-/

namespace ZincModel

/-- A model is read from nothing but the bytes of its file. -/
theorem Model.ofFile_congr {files files' : Files} {path : String}
    (same : files'.readBytes path = files.readBytes path) (s : Store) : ofFile files' path s = ofFile files path s := by
  have text : files'.readText path = files.readText path := by rw [Files.readText, Files.readText, same]
  rw [ofFile, ofFile, text]

namespace CommandLine

variable {env env' : Environment} {o : Options} {s : Store} {m : Model} {chance : Solver.Chance} {path : String}
  {arguments : List String}

/-- The time limit of the options, or else another one. -/
def Options.limitOr (o : Options) (otherwise : Value) : Value := (o.timeout.map .ofDouble).getD otherwise

theorem Options.limited_eq (o : Options) (c : Config) : o.limited c = ⟨c.executable, o.limitOr c.timeout⟩ := by
  unfold limited limitOr
  cases o.timeout <;> rfl

/-- The process that runs the executable of the options on a program. -/
def Options.call (o : Options) (chance : Solver.Chance) (source : List Char) : Solver.Call :=
  ⟨Solver.command o.minizinc chance.modelPath chance.outputPath o.solver, chance.workspace, o.limitOr .null, source⟩

theorem configured_given (given : o.minizinc ≠ "") (env : Environment) :
    configured env o = .ok ⟨.str o.minizinc, o.limitOr .null⟩ := by
  rw [configured, if_pos given, Options.limited_eq]

theorem configured_found (unset : o.minizinc = "") {c : Config} (h : configured env o = .ok c) :
    ∃ found, (Config.resolve env).1 = .ok found ∧ c.timeout = o.limitOr found.timeout := by
  rw [configured, if_neg (not_not_intro unset)] at h
  obtain ⟨found, resolved, rfl⟩ := Except.map_eq_ok.1 h
  exact ⟨found, resolved, by rw [Options.limited_eq]⟩

/-! ## Runs in two environments -/

theorem evaluate_given (given : o.minizinc ≠ "") (env env' : Environment) :
    evaluate env' o s m chance = evaluate env o s m chance := by
  rw [evaluate, evaluate, if_pos given, if_pos given]

theorem runOptions_given (given : o.minizinc ≠ "")
    (same : env'.files.readBytes path = env.files.readBytes path) (chance : Solver.Chance) :
    runOptions env' o path chance = runOptions env o path chance := by
  unfold runOptions
  rw [Model.ofFile_congr same]
  simp only [evaluate_given given env env']

/-! ## Processes -/

/-- A process that is started is told by the configuration. -/
theorem configured_of_call (accepted : Options.ofWords arguments = .ok o) {call : Solver.Call}
    (started : call ∈ (run env arguments chance).calls) :
    ∃ c executable, configured env o = .ok c ∧ c.executable = .str executable ∧
      call = ⟨Solver.command executable chance.modelPath chance.outputPath o.solver, chance.workspace, c.timeout,
        call.source⟩ := by
  rw [run_eq accepted] at started
  rcases (runOptions_course env o o.path chance).calls_cases with ⟨none, -⟩ | ⟨m, s, -, -, calls⟩
  · rw [none] at started
    cases started
  rw [calls] at started
  rcases evaluate_configured env o s m chance with ⟨f, -, -, -, none⟩ | ⟨c, configures, -, -, calls⟩
  · rw [none] at started
    cases started
  · rw [calls] at started
    obtain ⟨-, executable, same, told⟩ := evaluateProblem_calls started
    exact ⟨c, executable, configures, same, told⟩

theorem evaluateProblem_starts {p : Solver.Problem} {solver executable : String} {config : Config}
    {source : List Char} (found : config.executable = .str executable) (proper : executable ≠ "")
    (writable : chance.unwritable = none) (program : p.source = .ok source) :
    (Solver.evaluateProblem s p solver config chance).calls =
      [⟨Solver.command executable chance.modelPath chance.outputPath solver, chance.workspace, config.timeout,
        source⟩] := by
  have required := Solver.requireExecutable_of_str found proper
  have written : (Solver.writeModel p.source chance).result = .ok source :=
    Solver.writeModel_eq_ok.2 ⟨writable, program⟩
  simp only [Solver.evaluateProblem, required, written]
  split
  · exact Solver.invoke_calls executable solver config.timeout source chance
  · exact Solver.invoke_calls executable solver config.timeout source chance

/-- With an executable among the options a process is started as soon as there is a program for it. -/
theorem calls_given (accepted : Options.ofWords arguments = .ok o) (given : o.minizinc ≠ "") (plain : o.emit = false)
    (writable : chance.unwritable = none) (loaded : Model.ofFile env.files o.path {} = (.ok m, s))
    {source : List Char} (program : Program.source s m = .ok source) :
    (run env arguments chance).calls = [o.call chance source] := by
  rw [run_eq accepted]
  rcases (runOptions_course env o o.path chance).calls_cases with ⟨-, ⟨f, fault⟩ | emit⟩ | ⟨m', s', loaded', -, calls⟩
  · rw [loaded] at fault
    cases fault
  · rw [plain] at emit
    cases emit
  cases loaded.symm.trans loaded'
  rw [calls]
  rcases evaluate_configured env o s m chance with ⟨f, none, -⟩ | ⟨c, configures, -, -, calls⟩
  · rw [configured_given given] at none
    cases none
  · rw [configured_given given] at configures
    cases configures
    rw [calls]
    exact evaluateProblem_starts rfl given writable program

/-- Options count more than the environment. With an executable among them nothing but the model file is looked at in
the environment, and a process that is started is told by the options; without one it has the time limit of the options
or, if they have none, that of the configuration. A command line that is not accepted ends everywhere alike. -/
theorem run_overrides (arguments : List String) (chance : Solver.Chance) :
    (∀ o, Options.ofWords arguments = .ok o → o.minizinc ≠ "" →
      (∀ env env', env'.files.readBytes o.path = env.files.readBytes o.path →
        run env' arguments chance = run env arguments chance) ∧
      (∀ env, ∀ call ∈ (run env arguments chance).calls, call = o.call chance call.source) ∧
      ∀ env m s source, o.emit = false → chance.unwritable = none →
        Model.ofFile env.files o.path {} = (.ok m, s) → Program.source s m = .ok source →
        (run env arguments chance).calls = [o.call chance source]) ∧
    (∀ o, Options.ofWords arguments = .ok o → o.minizinc = "" →
      ∀ env, ∀ call ∈ (run env arguments chance).calls,
        ∃ c, (Config.resolve env).1 = .ok c ∧ call.timeout = o.limitOr c.timeout) ∧
    ∀ stop, Options.ofWords arguments = .error stop →
      ∀ env env', run env' arguments chance = run env arguments chance := by
  refine ⟨fun o accepted given => ⟨fun env env' same => ?_, fun env call started => ?_, ?_⟩,
    fun o accepted unset env call started => ?_, fun stop refused env env' => ?_⟩
  · rw [run_eq accepted, run_eq accepted]
    exact runOptions_given given same chance
  · obtain ⟨c, executable, configures, same, told⟩ := configured_of_call accepted started
    rw [configured_given given] at configures
    cases configures
    cases same
    exact told
  · intro env m s source plain writable loaded program
    exact calls_given accepted given plain writable loaded program
  · obtain ⟨c, executable, configures, -, told⟩ := configured_of_call accepted started
    obtain ⟨found, resolved, limit⟩ := configured_found unset configures
    refine ⟨found, resolved, ?_⟩
    rw [told]
    exact limit
  · rw [run, run, refused]
    cases stop <;> rfl

/-- With an executable among the options a configuration file that is named and cannot be read does not matter. Without
one the environment has the executable, and the options have the time limit. -/
theorem run_overrides_unreadable :
    (Options.ofWords ["--minizinc", "z", "m.yaml"] = .ok { model := some "m.yaml", minizinc := "z" } ∧
      (run ⟨[("MZNBRIDGE_CONFIG", "c.yaml")], (["c.yaml"], .file [0xff] false) :: smallEnvironment.files⟩
        ["--minizinc", "z", "m.yaml"] smallChance) =
      (run smallEnvironment ["--minizinc", "z", "m.yaml"] smallChance)) ∧
    (run smallEnvironment ["--timeout", "5", "m.yaml"] smallChance).calls.length = 1 ∧
      ∀ call ∈ (run smallEnvironment ["--timeout", "5", "m.yaml"] smallChance).calls,
        call.timeout = .ofDouble (.ofDecimal false 5 0) := by
  constructor
  · have accepted : Options.ofWords ["--minizinc", "z", "m.yaml"] =
        .ok { model := some "m.yaml", minizinc := "z" } := rfl
    refine ⟨accepted, ((run_overrides _ smallChance).1 _ accepted (by decide)).1 _ _ ?_⟩
    decide +kernel
  · have accepted : Options.ofWords ["--timeout", "5", "m.yaml"] =
        .ok { model := some "m.yaml", timeout := some (.ofDecimal false 5 0) } := rfl
    refine ⟨by decide +kernel, fun call started => ?_⟩
    obtain ⟨c, -, limit⟩ := (run_overrides _ smallChance).2.1 _ accepted rfl smallEnvironment call started
    exact limit

end CommandLine

end ZincModel
