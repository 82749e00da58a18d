import ZincModel.Proofs.CommandLine.Courses
import ZincModel.Proofs.Log.Shown
import ZincModel.Proofs.Solver.Relocation

/-!
# Debug messages

A run with `-v` in front of its other words ends as it does without, writes the same output and starts the same
process; on the standard error it shows the records of all levels instead of the urgent ones (`run_verbose`). The word
changes one field of the options, whatever words follow it (`Options.ofWords_verbose`), and this field only decides
which records are shown.
-/

namespace ZincModel.CommandLine

/-! ## The word `-v` -/

/-- The options with debug messages asked for. -/
def Options.loud (o : Options) : Options := { o with verbose := true }

namespace Options

theorem withArgument_loud (f : Flag) (argument : String) (o : Options) :
    o.loud.withArgument f argument = (o.withArgument f argument).map loud := by
  cases f with
  | timeout =>
    unfold withArgument
    dsimp only
    split <;> rfl
  | _ => rfl

theorem withFlag_loud (f : Flag) (o : Options) : o.loud.withFlag f = (o.withFlag f).map loud := by
  cases f <;> rfl

/-- A step that does the same to loud options, and what follows it. -/
theorem bind_loud {x x' : Except Stop Options} (first : x' = x.map loud) {f : Options → Except Stop Options}
    (next : ∀ o, f o.loud = (f o).map loud) : (x' >>= f) = (x >>= f).map loud := by
  rw [first]
  cases x with
  | error stop => rfl
  | ok o => exact next o

theorem withFlags_loud (fs : List Flag) (o : Options) : o.loud.withFlags fs = (o.withFlags fs).map loud := by
  induction fs generalizing o with
  | nil => rfl
  | cons f fs ih =>
    unfold withFlags at ih ⊢
    rw [List.foldlM_cons, List.foldlM_cons]
    exact bind_loud (withFlag_loud f o) ih

/-- Whether debug messages are asked for does not matter to any word. -/
theorem takeWords_loud (ws : List Word) (o : Options) : o.loud.takeWords ws = (o.takeWords ws).map loud := by
  fun_induction Options.takeWords ws o with
  | case1 o => rfl
  | case2 f spelling o takes argument rest ih =>
    rw [takeWords, if_pos takes]
    exact bind_loud (withArgument_loud f argument o) ih
  | case3 f spelling rest o takes none =>
    rw [takeWords, if_pos takes]
    · rfl
    · exact none
  | case4 f spelling rest o plain ih =>
    rw [takeWords.eq_def]
    dsimp only
    rw [if_neg plain]
    exact bind_loud (withFlag_loud f o) ih
  | case5 f spelling rest o takes =>
    rw [takeWords, if_pos takes, if_pos rfl]
    rfl
  | case6 f spelling text rest o takes present ih =>
    rw [takeWords, if_pos takes, if_neg present]
    exact bind_loud (withArgument_loud f text o) ih
  | case7 f spelling text rest o plain short ih =>
    rw [takeWords, if_neg plain, if_pos short]
    cases (shared f text.toList).mapError Stop.fault with
    | error stop => rfl
    | ok fs => exact bind_loud (withFlags_loud fs o) ih
  | case8 f spelling text rest o plain long =>
    rw [takeWords, if_neg plain, if_neg long]
    rfl
  | case9 s rest o ih =>
    rw [takeWords]
    exact ih
  | case10 s rest o model given ih =>
    rw [takeWords.eq_def]
    dsimp only [loud] at ih ⊢
    rw [given] at ih ⊢
    exact ih
  | case11 s o missing rest ih =>
    rw [takeWords.eq_def]
    dsimp only [loud] at ih ⊢
    rw [missing]
    exact ih
  | case12 s o missing rest other ih =>
    rw [takeWords]
    · rw [show o.loud.model = none from missing]
      exact ih
    · exact other
  | case13 o s rest missing ih =>
    rw [takeWords]
    · exact ih
    · exact missing
  | case14 o rest other ih =>
    rw [takeWords]
    · exact ih
    · exact other

/-- In front of other words the word `-v` does nothing but ask for debug messages. -/
theorem ofWords_verbose (arguments : List String) : ofWords ("-v" :: arguments) = (ofWords arguments).map loud := by
  have first : classify "-v" = .ok (.flag .verbose "-v" none) := by decide +kernel
  have words : classifyAll ("-v" :: arguments) = (classifyAll arguments).map (.flag .verbose "-v" none :: ·) := by
    rw [classifyAll, first]
    cases classifyAll arguments <;> rfl
  unfold ofWords
  rw [words]
  cases classifyAll arguments with
  | error f => rfl
  | ok ws =>
    have taken : takeWords (.flag .verbose "-v" none :: ws) {} = (takeWords ws {}).map loud := by
      rw [takeWords.eq_def]
      exact takeWords_loud ws {}
    refine bind_loud taken ?_
    rintro ⟨model, _, _, _, _, _, surplus⟩
    cases model with
    | none => rfl
    | some model => cases surplus <;> rfl

end Options

/-! ## What is noted in a run -/

open Log (AreOwn)

theorem resolve_own (env : Environment) : AreOwn (Config.resolve env).2 := by
  have noted (message : String) : AreOwn (Config.noted message) := .singleton Log.belongs_config
  unfold Config.resolve
  split
  · exact noted _
  · split
    · split
      · exact noted _
      · exact .nil
    · split
      · exact noted _
      · exact .nil

theorem invoke_own (executable solver : String) (timeout : Value) (source : List Char) (chance : Solver.Chance) :
    AreOwn (Solver.invoke executable solver timeout source chance).records := by
  have noted (level : Log.Level) (message : String) : AreOwn [Solver.note level message] :=
    .singleton Log.belongs_runner
  unfold Solver.invoke
  dsimp only
  split
  case h_6 =>
    split
    · exact noted _ _
    · exact (noted _ _).append (noted _ _)
  all_goals exact noted _ _

theorem interpret_own (s : Store) (decision : List Ref) (output : Option Entry) :
    AreOwn (Solution.interpret s decision output).records := by
  unfold Solution.interpret
  split
  · exact .nil
  · dsimp only
    split
    · exact .nil
    · next records noted =>
      unfold Solution.ignored at noted
      split at noted
      · cases noted
        exact .nil
      · obtain ⟨keys, -, rfl⟩ := Except.map_eq_ok.1 noted
        exact .singleton Log.belongs_results
  · split
    · exact .nil
    · exact .nil

theorem conclude_own (s : Store) (decision : List Ref) (solver : String) (output : Option Entry) :
    AreOwn (Solver.conclude s decision solver output).records := by
  have interpreted := interpret_own s decision output
  have noted (level : Log.Level) (message : String) : AreOwn [Solver.noteResult level message] :=
    .singleton Log.belongs_evaluation
  unfold Solver.conclude
  dsimp only
  split
  · exact interpreted
  · exact interpreted.append (noted _ _)
  · exact interpreted.append (noted _ _)

theorem evaluateProblem_own (s : Store) (p : Solver.Problem) (solver : String) (config : Config)
    (chance : Solver.Chance) : AreOwn (Solver.evaluateProblem s p solver config chance).records := by
  have written : AreOwn (Solver.writeModel p.source chance).records := by
    unfold Solver.writeModel
    split
    · exact .nil
    · split
      · exact .singleton Log.belongs_generator
      · exact .singleton Log.belongs_generator
  unfold Solver.evaluateProblem
  split
  · exact .nil
  · have created : AreOwn (Solver.note .debug ("Created solver workspace " ++ chance.workspace) ::
        (Solver.writeModel p.source chance).records) := .cons Log.belongs_runner written
    dsimp only
    split
    · exact created
    · next source _ =>
      split
      · next executable _ =>
        have invoked := created.append (invoke_own executable solver config.timeout source chance)
        split
        · exact invoked
        · exact invoked.append (conclude_own s p.decision solver _)
      · exact created

theorem evaluate_own (env : Environment) (o : Options) (s : Store) (m : Model) (chance : Solver.Chance) :
    AreOwn (evaluate env o s m chance).records := by
  unfold evaluate
  dsimp only
  split
  · exact evaluateProblem_own s _ o.solver _ chance
  · split
    · exact resolve_own env
    · exact (resolve_own env).append (evaluateProblem_own s _ o.solver _ chance)

/-! ## What is shown of it -/

/-- The end with what is shown of the log in front of its complaint. -/
def Ending.after (shown : List Char) (e : Ending) : Ending := { e with errors := shown ++ e.errors }

theorem fail_eq (explain : List Char → String) (noted : List Char) (calls : List Solver.Call) (f : Fault) :
    fail explain noted calls f = (fail explain [] calls f).after noted := by
  unfold fail
  split
  · simp [Ending.after]
  · simp [Ending.after]

/-- What was noted is shown in front of the complaint, and has no other part in the end. -/
theorem report_eq (explain : List Char → String) (noted : List Char) (m : Model) (e : Solver.Evaluation) :
    report explain noted m e = (report explain [] m e).after noted := by
  unfold report
  split
  · exact fail_eq explain noted _ _
  · simp [Ending.after]
  · dsimp only
    split
    · simp [Ending.after]
    · simp [Ending.after]

/-- Whether debug messages are asked for decides what is shown of the records, and nothing else. -/
theorem runOptions_loud (env : Environment) (o : Options) (path : String) (chance : Solver.Chance) :
    ∃ (records : List Log.Record) (ending : Ending), AreOwn records ∧
      runOptions env o path chance = ending.after (o.shown records) ∧
      runOptions env o.loud path chance = ending.after (o.loud.shown records) := by
  have unshown (o : Options) (f : Fault) :
      fail chance.explain [] [] f = (fail chance.explain [] [] f).after (o.shown []) := rfl
  unfold runOptions
  dsimp only
  split
  · next f s loaded => exact ⟨[], fail chance.explain [] [] f, .nil, unshown o f, unshown o.loud f⟩
  · next m s loaded =>
    cases emit : o.emit with
    | true =>
      rw [show o.loud.emit = true from emit, if_pos rfl, if_pos rfl]
      split
      · next f rendered => exact ⟨[], fail chance.explain [] [] f, .nil, unshown o f, unshown o.loud f⟩
      · next source rendered =>
        have emitted (o : Options) :
            ({ status := .ok (some 0), output := source, errors := o.shown [Program.generated source] } : Ending) =
              Ending.after (o.shown [Program.generated source]) { status := .ok (some 0), output := source } := by
          simp [Ending.after]
        exact ⟨[Program.generated source], _, .singleton Log.belongs_generator, emitted o, emitted o.loud⟩
    | false =>
      rw [show o.loud.emit = false from emit, if_neg Bool.false_ne_true, if_neg Bool.false_ne_true]
      exact ⟨(evaluate env o s m chance).records, report chance.explain [] m (evaluate env o s m chance),
        evaluate_own env o s m chance, report_eq _ _ _ _, report_eq _ _ _ _⟩

/-- The records from the level of the options on, each on a line of its own. -/
theorem Options.shown_eq (o : Options) {records : List Log.Record} (own : AreOwn records) :
    o.shown records = (records.filter fun r =>
      Log.isTaken (if o.verbose then Log.Level.debug else .warning).number r.level.number).flatMap Log.Record.line := by
  apply Log.State.shown_setup _ own
  cases o.verbose <;> decide

/-! ## Runs in other workspaces -/

/-- The two runs end alike and start the same processes, each in a workspace of its own. -/
structure Ending.Agrees (workspace workspace' : String) (a b : Ending) : Prop where
  status : b.status = a.status
  output : b.output = a.output
  calls : List.Forall₂ (Solver.Call.Relocated workspace workspace') a.calls b.calls

/-- An end without processes. -/
theorem Ending.Agrees.same {e : Ending} (idle : e.calls = []) (workspace workspace' : String) :
    e.Agrees workspace workspace' e where
  status := rfl
  output := rfl
  calls := by rw [idle]; exact .nil

theorem report_agrees {workspace workspace' : String} {e e' : Solver.Evaluation}
    (h : e.Relocated workspace workspace' e') (explain : List Char → String) (noted noted' : List Char) (m : Model) :
    (report explain noted m e).Agrees workspace workspace' (report explain noted' m e') := by
  obtain ⟨result, s, records, calls⟩ := e
  obtain ⟨result', s', records', calls'⟩ := e'
  obtain ⟨same, rfl, relocated⟩ := h
  dsimp only at same relocated
  cases same with
  | unwritten path path' cause => exact ⟨rfl, rfl, relocated⟩
  | refl =>
    unfold report
    dsimp only
    cases result with
    | error f =>
      dsimp only
      unfold fail
      split
      · exact ⟨rfl, rfl, relocated⟩
      · exact ⟨rfl, rfl, relocated⟩
    | ok satisfiable =>
      cases satisfiable with
      | false => exact ⟨rfl, rfl, relocated⟩
      | true =>
        dsimp only
        split
        · exact ⟨rfl, rfl, relocated⟩
        · exact ⟨rfl, rfl, relocated⟩

theorem evaluate_relocated (env : Environment) (o : Options) (s : Store) (m : Model) (chance : Solver.Chance)
    (workspace : String) :
    (evaluate env o s m chance).Relocated chance.workspace workspace
      (evaluate env o s m { chance with workspace := workspace }) := by
  unfold evaluate
  dsimp only
  split
  · exact Solver.evaluate_relocated chance workspace s m o.solver _
  · split
    · exact ⟨.refl _, rfl, .nil⟩
    · next config _ =>
      have relocated := Solver.evaluate_relocated chance workspace s m o.solver (o.limited config)
      exact ⟨relocated.result, relocated.store, relocated.calls⟩

theorem runOptions_agrees (env : Environment) (o : Options) (path : String) (chance : Solver.Chance)
    (workspace : String) :
    (runOptions env o path chance).Agrees chance.workspace workspace
      (runOptions env o path { chance with workspace := workspace }) := by
  have failed (f : Fault) :
      (fail chance.explain [] [] f).Agrees chance.workspace workspace (fail chance.explain [] [] f) := by
    refine .same ?_ _ _
    unfold fail
    split
    · rfl
    · rfl
  unfold runOptions
  dsimp only
  split
  · exact failed _
  · next m s loaded =>
    split
    · split
      · exact failed _
      · exact ⟨rfl, rfl, .nil⟩
    · exact report_agrees (evaluate_relocated env o s m chance workspace) _ _ _ m

/-! ## Runs with and without debug messages -/

/-- The record is of the level of warnings or of a higher one. -/
def isUrgent (r : Log.Record) : Bool := Log.isTaken Log.Level.warning.number r.level.number

/-- The record is of the level of debug messages or of a higher one. -/
def isNoted (r : Log.Record) : Bool := Log.isTaken Log.Level.debug.number r.level.number

theorem filter_isUrgent (records : List Log.Record) :
    (records.filter isNoted).filter isUrgent = records.filter isUrgent := by
  have noted (r : Log.Record) : (isUrgent r && isNoted r) = isUrgent r := by
    unfold isUrgent isNoted
    cases r.level <;> decide
  rw [List.filter_filter]
  simp only [noted]

/-- The standard errors differ in lines for records at most: the first one has the same complaint behind the lines for
all records that the second one has lines for, or for the urgent ones among them. -/
def Ending.IsQuieter (a b : Ending) : Prop :=
  ∃ (records quiet : List Log.Record) (complaint : List Char), (quiet = records ∨ quiet = records.filter isUrgent) ∧
    a.errors = quiet.flatMap Log.Record.line ++ complaint ∧ b.errors = records.flatMap Log.Record.line ++ complaint

theorem Ending.IsQuieter.same (e : Ending) : e.IsQuieter e := ⟨[], [], e.errors, Or.inl rfl, rfl, rfl⟩

theorem runOptions_isQuieter (env : Environment) (o : Options) (path : String) (chance : Solver.Chance) :
    (runOptions env o path chance).IsQuieter (runOptions env o.loud path chance) := by
  obtain ⟨records, ending, own, plain, loud⟩ := runOptions_loud env o path chance
  have all : o.loud.shown records = (records.filter isNoted).flatMap Log.Record.line := o.loud.shown_eq own
  have some : o.shown records = (records.filter (if o.verbose then isNoted else isUrgent)).flatMap Log.Record.line := by
    rw [o.shown_eq own]
    cases o.verbose <;> rfl
  rw [plain, loud]
  refine ⟨records.filter isNoted, records.filter (if o.verbose then isNoted else isUrgent), ending.errors, ?_,
    congrArg (· ++ ending.errors) some, congrArg (· ++ ending.errors) all⟩
  cases o.verbose with
  | true => exact Or.inl rfl
  | false => exact Or.inr (filter_isUrgent records).symm

theorem runOptions_loud_agrees (env : Environment) (o : Options) (path : String) (chance : Solver.Chance)
    (workspace : String) :
    (runOptions env o path chance).Agrees chance.workspace workspace
      (runOptions env o.loud path { chance with workspace := workspace }) := by
  have agrees := runOptions_agrees env o path chance workspace
  obtain ⟨records, ending, -, plain, loud⟩ := runOptions_loud env o path { chance with workspace := workspace }
  rw [plain] at agrees
  rw [loud]
  exact ⟨agrees.status, agrees.output, agrees.calls⟩

/-- With `-v` in front of its other words a run ends alike, writes the same output and starts the same processes but
for the name of its workspace. What it shows in addition are lines on the standard error. -/
theorem run_verbose (env : Environment) (arguments : List String) (chance : Solver.Chance) :
    (∀ workspace, (run env arguments chance).Agrees chance.workspace workspace
      (run env ("-v" :: arguments) { chance with workspace := workspace })) ∧
    (run env arguments chance).IsQuieter (run env ("-v" :: arguments) chance) := by
  unfold run
  rw [Options.ofWords_verbose]
  rcases Options.ofWords arguments with (_ | _ | fault) | o
  · exact ⟨fun _ => .same rfl _ _, .same _⟩
  · exact ⟨fun _ => .same rfl _ _, .same _⟩
  · exact ⟨fun _ => .same rfl _ _, .same _⟩
  · exact ⟨runOptions_loud_agrees env o o.path chance, runOptions_isQuieter env o o.path chance⟩

end ZincModel.CommandLine
