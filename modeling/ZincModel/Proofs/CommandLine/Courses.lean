import ZincModel.Proofs.CommandLine.Stages

/-!
# Courses of a run

With a command line that is accepted a run takes one of few courses (`runOptions_course`): it stops where the model is
not loaded, where it has no program, or where the evaluation fails, or it writes the program or the verdict. With a
satisfiable model the values of the solution can be written, since none of them has an integer that is too long.
-/

namespace ZincModel.CommandLine

open Except (Ends)

variable {env : Environment} {o : Options} {s : Store} {m : Model} {chance : Solver.Chance}

/-! ## Evaluations -/

/-- The configuration with the time limit of the options, if they have one. -/
def Options.limited (o : Options) (c : Config) : Config :=
  match o.timeout with
  | some x => { c with timeout := .ofDouble x }
  | none => c

/-- The configuration that the options give, or else the environment. -/
def configured (env : Environment) (o : Options) : Except Fault Config :=
  if o.minizinc ≠ "" then .ok (o.limited ⟨.str o.minizinc, .null⟩) else (Config.resolve env).1.map o.limited

/-- There is no configuration, or it is what the model is evaluated with. -/
theorem evaluate_configured (env : Environment) (o : Options) (s : Store) (m : Model) (chance : Solver.Chance) :
    (∃ f, configured env o = .error f ∧ (evaluate env o s m chance).result = .error f ∧
      (evaluate env o s m chance).store = s ∧ (evaluate env o s m chance).calls = []) ∨
    ∃ c, configured env o = .ok c ∧
      (evaluate env o s m chance).result = (Solver.evaluate s m o.solver c chance).result ∧
      (evaluate env o s m chance).store = (Solver.evaluate s m o.solver c chance).store ∧
      (evaluate env o s m chance).calls = (Solver.evaluate s m o.solver c chance).calls := by
  unfold configured evaluate
  by_cases given : o.minizinc ≠ ""
  · rw [if_pos given, if_pos given]
    exact .inr ⟨_, rfl, rfl, rfl, rfl⟩
  · rw [if_neg given, if_neg given]
    dsimp only
    cases (Config.resolve env).1 with
    | error f => exact .inl ⟨f, rfl, rfl, rfl, rfl⟩
    | ok config => exact .inr ⟨_, rfl, rfl, rfl, rfl⟩

theorem configured_ends (env : Environment) (o : Options) :
    Ends (fun f => isHandled f = true ∨ o.minizinc = "" ∧ Config.Unresolved env f)
      (fun c => c.timeout.isShort = true) (configured env o) := by
  have limited {c : Config} (short : c.timeout.isShort = true) : (o.limited c).timeout.isShort = true := by
    unfold Options.limited
    split
    · rfl
    · exact short
  unfold configured
  split
  · exact .ok (limited rfl)
  · next unset =>
    have resolved := Config.resolve_ends env
    refine (resolved.mono (G := fun f => isHandled f = true ∨ o.minizinc = "" ∧ Config.Unresolved env f) ?_
      fun _ => id).map fun _ => limited
    rintro f (handled | unresolved)
    · exact .inl handled
    · exact .inr ⟨of_not_not unset, unresolved⟩

/-- The evaluation has this verdict if there is a configuration with which the model has it. -/
theorem evaluate_eq_ok_iff {verdict : Bool} :
    (evaluate env o s m chance).result = .ok verdict ↔
      ∃ c, configured env o = .ok c ∧ (Solver.evaluate s m o.solver c chance).result = .ok verdict := by
  rcases evaluate_configured env o s m chance with ⟨f, none, result, -⟩ | ⟨c, some, result, -⟩
  · rw [none, result]
    simp
  · rw [some, result]
    simp

theorem entriesShort_of_solution? {entries : List (Value × Value)} (h : chance.solution? = some entries) :
    Value.entriesShort entries = true := by
  unfold Solver.Chance.solution? at h
  split at h
  · next output _ =>
    have parses := Solution.parse_ends (Solution.artifactText output)
    split at h
    · next e =>
      cases h
      rw [e] at parses
      exact parses.result _ rfl
    · cases h
  · cases h

/-- With a satisfiable model the solution that the process has left is assigned. -/
theorem evaluate_solution (h : (evaluate env o s m chance).result = .ok true) :
    ∃ entries, chance.solution? = some entries ∧ Value.IsObject entries ∧ Value.entriesShort entries = true ∧
      (evaluate env o s m chance).store = Solution.assign s m.decision entries := by
  rcases evaluate_configured env o s m chance with ⟨f, -, result, -⟩ | ⟨c, -, result, store, -⟩
  · rw [result] at h
    cases h
  · rw [result] at h
    rcases Solver.evaluateProblem_cases s (Solver.problemOf s m) o.solver c chance with assigns | keeps
    · obtain ⟨entries, solution, object, assigned⟩ := assigns.store
      exact ⟨entries, solution, object, entriesShort_of_solution? solution, store.trans assigned⟩
    · exact (keeps.result h).elim

/-- A process that is started runs the executable of the configuration, for its time, on the program of the problem. -/
theorem evaluateProblem_calls {p : Solver.Problem} {solver : String} {config : Config} {call : Solver.Call}
    (h : call ∈ (Solver.evaluateProblem s p solver config chance).calls) :
    p.source = .ok call.source ∧ ∃ executable, config.executable = .str executable ∧
      call = ⟨Solver.command executable chance.modelPath chance.outputPath solver, chance.workspace, config.timeout,
        call.source⟩ := by
  unfold Solver.evaluateProblem at h
  split at h
  · cases h
  · next found =>
    obtain ⟨same, -⟩ := Solver.requireExecutable_eq_ok.1 found
    dsimp only at h
    split at h
    · cases h
    · next source written =>
      obtain ⟨-, program⟩ := Solver.writeModel_eq_ok.1 written
      split at h
      · split at h
        · rw [Solver.invoke_calls] at h
          rw [List.mem_singleton.1 h]
          exact ⟨program, _, same, rfl⟩
        · rw [Solver.invoke_calls] at h
          rw [List.mem_singleton.1 h]
          exact ⟨program, _, same, rfl⟩
      · cases h

/-- A process that is started is given the program for the model. -/
theorem evaluate_calls {call : Solver.Call} (h : call ∈ (evaluate env o s m chance).calls) :
    Program.source s m = .ok call.source := by
  rcases evaluate_configured env o s m chance with ⟨f, -, -, -, calls⟩ | ⟨c, -, -, -, calls⟩
  · rw [calls] at h
    cases h
  · rw [calls] at h
    exact (evaluateProblem_calls h).1

/-! ## Answers -/

/-- The line for a variable of this name, of which a solution has these entries. -/
def answer (entries : List (Value × Value)) (name : String) : Except Fault (List Char) :=
  ((Value.lookup name entries).getD .null).text.map (name.toList ++ " = ".toList ++ ·)

/-- The lines for all decision variables of the model, one below the other. -/
def answers (s : Store) (m : Model) (entries : List (Value × Value)) : Except Fault (List Char) :=
  (m.decision.mapM fun r => answer entries (s.name r)).map (Text.join ['\n'])

theorem answers_isOk {entries : List (Value × Value)} (short : Value.entriesShort entries = true) (s : Store)
    (m : Model) : ∃ text, answers s m entries = .ok text := by
  have each : ∀ r ∈ m.decision, ∃ t, answer entries (s.name r) = .ok t := by
    intro r _
    have value : ((Value.lookup (s.name r) entries).getD .null).isShort = true := by
      cases found : Value.lookup (s.name r) entries with
      | none => rfl
      | some v => exact Value.lookup_isShort short found
    obtain ⟨t, text⟩ := Value.text_isOk value
    exact ⟨_, Except.map_eq_ok.2 ⟨t, text, rfl⟩⟩
  obtain ⟨lines, all⟩ := Except.mapM_isOk each
  exact ⟨_, Except.map_eq_ok.2 ⟨lines, all, rfl⟩⟩

/-- What is listed after a solution has been assigned to the variables of a new model is what the solution says. -/
theorem listing_assign {entries : List (Value × Value)} (restored : Model.Restored {} s m)
    (object : Value.IsObject entries) :
    Solver.listing (Solution.assign s m.decision entries) m.decision = answers s m entries := by
  have names : (m.decision.map s.name).Nodup :=
    restored.lawful.names.sublist ((List.sublist_append_right _ _).map _)
  have declared : ∀ r ∈ m.decision, r < s.declared.size := fun r hr => (restored.decision r hr).new
  have each : ∀ r ∈ m.decision, Solver.listed ((Solution.assign s m.decision entries).get r) =
      answer entries (s.name r) := by
    intro r hr
    have unsolved := (restored.decision r hr).fresh.unsolved rfl
    rw [Solution.get_assign names declared object r, Solution.entryFor, if_pos hr, unsolved, Solver.listed, answer]
    rfl
  unfold Solver.listing Solver.listingOfGiven answers
  rw [Model.mapM_proper, Except.mapM_congr each]
  rfl

/-! ## Courses -/

/-- The path of the model file. -/
def Options.path (o : Options) : String := o.model.getD ""

/-- The log as it is shown. -/
def Options.shown (o : Options) (records : List Log.Record) : List Char :=
  shownRecords (if o.verbose then .debug else .warning) records

/-- What becomes of a run on the model file at a path. -/
inductive Course (env : Environment) (o : Options) (path : String) (chance : Solver.Chance) : Ending → Prop
  | unloaded {f : Fault} : (Model.ofFile env.files path {}).1 = .error f →
    Course env o path chance (fail chance.explain [] [] f)
  | unwritten {m : Model} {s : Store} {f : Fault} : Model.ofFile env.files path {} = (.ok m, s) → o.emit = true →
    Program.source s m = .error f → Course env o path chance (fail chance.explain [] [] f)
  | emitted {m : Model} {s : Store} {source : List Char} : Model.ofFile env.files path {} = (.ok m, s) →
    o.emit = true → Program.source s m = .ok source →
    Course env o path chance
      { status := .ok (some 0), output := source, errors := o.shown [Program.generated source] }
  | unevaluated {m : Model} {s : Store} {f : Fault} {records : List Log.Record} :
    Model.ofFile env.files path {} = (.ok m, s) → o.emit = false → (evaluate env o s m chance).result = .error f →
    Course env o path chance (fail chance.explain (o.shown records) (evaluate env o s m chance).calls f)
  | unsatisfiable {m : Model} {s : Store} {records : List Log.Record} :
    Model.ofFile env.files path {} = (.ok m, s) → o.emit = false → (evaluate env o s m chance).result = .ok false →
    Course env o path chance
      { status := .ok (some 1), output := line "UNSAT".toList, errors := o.shown records,
        calls := (evaluate env o s m chance).calls }
  | satisfiable {m : Model} {s : Store} {records : List Log.Record} {entries : List (Value × Value)}
    {text : List Char} :
    Model.ofFile env.files path {} = (.ok m, s) → o.emit = false → (evaluate env o s m chance).result = .ok true →
    chance.solution? = some entries → answers s m entries = .ok text →
    Course env o path chance
      { status := .ok (some 0), output := line "SAT".toList ++ line text, errors := o.shown records,
        calls := (evaluate env o s m chance).calls }

theorem runOptions_course (env : Environment) (o : Options) (path : String) (chance : Solver.Chance) :
    Course env o path chance (runOptions env o path chance) := by
  have loads := Model.ofFile_ends env.files path {}
  unfold runOptions
  rcases loaded : Model.ofFile env.files path {} with ⟨f | m, s⟩
  · exact .unloaded (by rw [loaded])
  rw [loaded] at loads
  have restored := loads.result
  dsimp only
  cases emit : o.emit with
  | true =>
    rw [if_pos rfl]
    split
    · next program => exact .unwritten loaded emit program
    · next program => exact .emitted loaded emit program
  | false =>
    rw [if_neg Bool.false_ne_true]
    unfold report
    split
    · next result => exact .unevaluated loaded emit result
    · next result => exact .unsatisfiable loaded emit result
    · next result =>
      obtain ⟨entries, solution, object, short, store⟩ := evaluate_solution result
      obtain ⟨text, said⟩ := answers_isOk short s m
      rw [store, listing_assign restored object, said]
      exact .satisfiable loaded emit result solution said

theorem run_eq {arguments : List String} (accepted : Options.ofWords arguments = .ok o) (env : Environment)
    (chance : Solver.Chance) : run env arguments chance = runOptions env o o.path chance := by
  unfold run
  rw [accepted]
  rfl

end ZincModel.CommandLine
