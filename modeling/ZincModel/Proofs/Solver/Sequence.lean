import ZincModel.Proofs.Model.Blueprint
import ZincModel.Proofs.Solution.Assignment
import ZincModel.Proofs.Solver.Verdict

/-!
# Evaluations in sequence

Models that share variables are evaluated one after the other. What one evaluation comes to depends on the program
for its model and on its own process, not on the values that are in the store; and the store changes only where a
solution is assigned. After any sequence a decision variable therefore has what the last solution for it says, and
all else is as it was (`get_evaluateAll`, `assignedInTurn_parameter`).
-/

namespace ZincModel.Solver

open Solution

/-- Where an evaluation has its configuration from. -/
inductive Setting where
  | given (config : Config)
  | resolved (env : Environment)

/-- The configuration that a request has, if it has one, and what was noted about it. -/
def Setting.configured : Setting → Except Fault Config × List Log.Record
  | given config => (.ok config, [])
  | resolved env => Config.resolve env

/-- A request to evaluate a model, with what comes of it. The workspace is empty before, so all that can be read in
it is what the process of this request leaves. -/
structure Request where
  model : Model
  solver : String
  setting : Setting
  chance : Chance

/-- The solution in what the process leaves. -/
def Chance.solution? (chance : Chance) : Option (List (Value × Value)) :=
  match chance.outcome with
  | .finished _ _ output =>
    match parse (artifactText output) with
    | .ok (some entries) => some entries
    | _ => none
  | _ => none

namespace Request

/-- What a request comes to, with the variables as they are. -/
def evaluate (q : Request) (s : Store) : Evaluation :=
  match q.setting with
  | .given config => Solver.evaluate s q.model q.solver config q.chance
  | .resolved env => evaluateProblemIn env s (problemOf s q.model) q.solver q.chance

/-- What a request has for a variable that came to this evaluation: nothing, unless the model is satisfiable, the
variable is one of its decision variables, and the solution names it. -/
def assigned (q : Request) (e : Evaluation) (s : Store) (r : Ref) : Option Value :=
  match e.result with
  | .ok true => q.chance.solution?.bind (entryFor s q.model.decision · r)
  | _ => none

end Request

/-- The requests one after the other: what each of them comes to, and the variables in the end. -/
def evaluateAll : List Request → Store → List Evaluation × Store
  | [], s => ([], s)
  | q :: rest, s =>
    let evaluation := q.evaluate s
    let others := evaluateAll rest evaluation.store
    (evaluation :: others.1, others.2)

/-- What an evaluation comes to with a configuration, if there is one, and with what was noted about it. -/
def evaluateConfigured (configured : Except Fault Config × List Log.Record) (s : Store) (p : Problem) (solver : String)
    (chance : Chance) : Evaluation :=
  match configured.1 with
  | .error f => ⟨.error f, s, configured.2, []⟩
  | .ok config =>
    let evaluation := evaluateProblem s p solver config chance
    { evaluation with records := configured.2 ++ evaluation.records }

namespace Request

theorem evaluate_eq (q : Request) (s : Store) :
    q.evaluate s = evaluateConfigured q.setting.configured s (problemOf s q.model) q.solver q.chance := by
  unfold evaluate evaluateConfigured
  cases q.setting with
  | given config => rfl
  | resolved env =>
    unfold evaluateProblemIn Setting.configured
    rcases Config.resolve env with ⟨f | config, records⟩
    · rfl
    · rfl

end Request

/-! ## What one evaluation does to the variables -/

/-- The model is satisfiable, and the solution is assigned. -/
structure Assigns (s : Store) (decision : List Ref) (solution? : Option (List (Value × Value))) (e : Evaluation) :
    Prop where
  satisfiable : e.result = .ok true
  store : ∃ entries, solution? = some entries ∧ Value.IsObject entries ∧ e.store = assign s decision entries

/-- The model is not known to be satisfiable, and the variables are left alone. -/
structure Keeps (s : Store) (e : Evaluation) : Prop where
  result : e.result ≠ .ok true
  store : e.store = s

theorem solution?_eq {chance : Chance} {returncode : Int} {stderr : String} {output : Option Entry}
    {entries : List (Value × Value)} (finished : chance.outcome = .finished returncode stderr output)
    (holds : Holds output entries) : chance.solution? = some entries := by
  simp only [Chance.solution?, finished, show parse (artifactText output) = _ from holds]

theorem conclude_store (s : Store) (decision : List Ref) (solver : String) (output : Option Entry) :
    (conclude s decision solver output).store = (interpret s decision output).store := by
  unfold conclude
  dsimp only
  split <;> rfl

/-- What comes of a process that has ended well. -/
theorem conclude_cases (s : Store) (decision : List Ref) (solver : String) (output : Option Entry) :
    (∃ entries, Holds output entries ∧ (conclude s decision solver output).result = .ok true ∧
      (conclude s decision solver output).store = assign s decision entries) ∨
    Keeps s (conclude s decision solver output) := by
  have result := conclude_result s decision solver output
  have store := (conclude_store s decision solver output).trans (interpret_store s decision output)
  unfold Holds
  rcases e : parse (artifactText output) with f | _ | entries <;> rw [e] at result store
  · exact Or.inr ⟨by simp [result], store⟩
  · refine Or.inr ⟨?_, store⟩
    rw [result]
    cases Text.occurs unsatMarker (firstLine output) <;> simp
  · exact Or.inl ⟨entries, rfl, result, store⟩

theorem invoke_eq_ok {executable solver : String} {timeout : Value} {source : List Char} {chance : Chance}
    {output : Option Entry} (h : (invoke executable solver timeout source chance).result = .ok output) :
    ∃ stderr, chance.outcome = .finished 0 stderr output := by
  unfold invoke at h
  dsimp only at h
  split at h
  case h_5 => simp [Except.bind_eq_ok] at h
  case h_6 returncode stderr output' finished =>
    split at h
    · next zero =>
      cases h
      exact ⟨stderr, zero ▸ finished⟩
    · cases h
  all_goals cases h

/-- An evaluation assigns the solution that is there, or leaves the variables alone. -/
theorem evaluateProblem_cases (s : Store) (p : Problem) (solver : String) (config : Config) (chance : Chance) :
    Assigns s p.decision chance.solution? (evaluateProblem s p solver config chance) ∨
      Keeps s (evaluateProblem s p solver config chance) := by
  unfold evaluateProblem
  split
  · exact Or.inr ⟨by simp, rfl⟩
  dsimp only
  split
  · exact Or.inr ⟨by simp, rfl⟩
  split
  · split
    · exact Or.inr ⟨by simp, rfl⟩
    · next output ended =>
      obtain ⟨stderr, finished⟩ := invoke_eq_ok ended
      rcases conclude_cases s p.decision solver output with ⟨entries, holds, result, store⟩ | kept
      · exact Or.inl ⟨result, entries, solution?_eq finished holds, holds.isObject, store⟩
      · exact Or.inr ⟨kept.result, kept.store⟩
  · exact Or.inr ⟨by simp, rfl⟩

namespace Request

variable {q : Request} {s : Store}

theorem evaluate_cases (q : Request) (s : Store) :
    Assigns s q.model.decision q.chance.solution? (q.evaluate s) ∨ Keeps s (q.evaluate s) := by
  rw [evaluate_eq]
  unfold evaluateConfigured
  cases q.setting.configured.1 with
  | error f => exact Or.inr ⟨by simp, rfl⟩
  | ok config =>
    rcases evaluateProblem_cases s (problemOf s q.model) q.solver config q.chance with assigns | keeps
    · exact Or.inl ⟨assigns.satisfiable, assigns.store⟩
    · exact Or.inr ⟨keeps.result, keeps.store⟩

/-- One request: the variables that it has something for have that, and all else is as it was. -/
theorem get_evaluate (constructed : q.model.Constructed s) (r : Ref) :
    (q.evaluate s).store.get r =
      { s.get r with value := (q.assigned (q.evaluate s) s r).getD (s.get r).value } := by
  have names : (q.model.decision.map s.name).Nodup :=
    constructed.lawful.names.sublist ((List.sublist_append_right _ _).map _)
  have declared : ∀ r ∈ q.model.decision, r < s.declared.size :=
    fun r hr => constructed.declared (List.mem_append_right _ hr)
  rcases evaluate_cases q s with ⟨result, entries, solution, object, store⟩ | kept
  · rw [store, get_assign names declared object, assigned, result, solution]
    rfl
  · have nothing : q.assigned (q.evaluate s) s r = none := by
      unfold assigned
      split
      · next sat => exact absurd sat kept.result
      · rfl
    rw [kept.store, nothing]
    rfl

theorem evaluate_leads (constructed : q.model.Constructed s) : s.Leads (q.evaluate s).store := by
  rcases evaluate_cases q s with ⟨-, entries, -, -, store⟩ | kept
  · rw [store]
    exact assign_leads constructed.lawful.decision entries
  · rw [kept.store]

end Request

/-! ## What an evaluation depends on -/

/-- Result and processes of an evaluation are told from the program for the model, whatever its variables are. -/
theorem evaluateProblem_result (s s' : Store) {p p' : Problem} (source : p'.source = p.source) (solver : String)
    (config : Config) (chance : Chance) :
    (evaluateProblem s' p' solver config chance).result = (evaluateProblem s p solver config chance).result ∧
      (evaluateProblem s' p' solver config chance).calls = (evaluateProblem s p solver config chance).calls := by
  simp only [evaluateProblem, source]
  rcases config.requireExecutable with f | executable
  · exact ⟨rfl, rfl⟩
  rcases (writeModel p.source chance).result with f | text
  · exact ⟨rfl, rfl⟩
  cases executable with
  | str executable =>
    dsimp only
    rcases (invoke executable solver config.timeout text chance).result with f | output
    · exact ⟨rfl, rfl⟩
    · exact ⟨(conclude_result ..).trans (conclude_result ..).symm, rfl⟩
  | _ => exact ⟨rfl, rfl⟩

namespace Request

variable {q : Request} {s : Store}

/-- A request comes to the same at any later time. -/
theorem evaluate_later (constructed : q.model.Constructed s) {s' : Store} (run : s.Leads s') :
    (q.evaluate s').result = (q.evaluate s).result ∧ (q.evaluate s').calls = (q.evaluate s).calls := by
  have source : Program.source s' q.model = Program.source s q.model := by
    rw [Model.source_eq constructed.lawful, Model.source_eq (constructed.leads run).lawful,
      constructed.blueprint_eq run]
  rw [evaluate_eq, evaluate_eq]
  unfold evaluateConfigured
  cases q.setting.configured.1 with
  | error f => exact ⟨rfl, rfl⟩
  | ok config => exact evaluateProblem_result s s' source q.solver config q.chance

end Request

/-! ## Sequences -/

variable {s : Store} {qs : List Request}

theorem evaluateAll_leads (constructed : ∀ q ∈ qs, q.model.Constructed s) : s.Leads (evaluateAll qs s).2 := by
  induction qs generalizing s with
  | nil => exact .refl
  | cons q qs ih =>
    obtain ⟨first, others⟩ := List.forall_mem_cons.1 constructed
    have run := Request.evaluate_leads first
    exact run.trans (ih fun q' hq' => (others q' hq').leads run)

/-- What a request has for a variable goes by the name of the variable, which does not change. -/
theorem Request.assigned_later {q : Request} (constructed : q.model.Constructed s) {s' : Store} (run : s.Leads s')
    (e : Evaluation) (r : Ref) : q.assigned e s' r = q.assigned e s r := by
  have entry : ∀ entries, entryFor s' q.model.decision entries r = entryFor s q.model.decision entries r := by
    intro entries
    unfold entryFor
    by_cases hr : r ∈ q.model.decision
    · have name : s'.name r = s.name r := (run.later (constructed.declared (List.mem_append_right _ hr))).name
      rw [name]
    · simp [hr]
  simp only [assigned, entry]

/-- What the requests have for a variable, in turn. -/
def assignedInTurn (qs : List Request) (es : List Evaluation) (s : Store) (r : Ref) : List Value :=
  (qs.zip es).filterMap fun (q, e) => q.assigned e s r

/-- The last of the requests that have something for a variable determines its value. -/
theorem get_evaluateAll (constructed : ∀ q ∈ qs, q.model.Constructed s) (r : Ref) :
    (evaluateAll qs s).2.get r =
      { s.get r with value := (assignedInTurn qs (evaluateAll qs s).1 s r).getLast?.getD (s.get r).value } := by
  induction qs generalizing s with
  | nil => rfl
  | cons q qs ih =>
    obtain ⟨first, others⟩ := List.forall_mem_cons.1 constructed
    have run := Request.evaluate_leads first
    have later : assignedInTurn qs (evaluateAll qs (q.evaluate s).store).1 (q.evaluate s).store r =
        assignedInTurn qs (evaluateAll qs (q.evaluate s).store).1 s r :=
      List.filterMap_congr fun pair hpair =>
        Request.assigned_later (others _ (List.of_mem_zip hpair).1) run pair.2 r
    have rest := ih fun q' hq' => (others q' hq').leads run
    rw [later, Request.get_evaluate first] at rest
    change (evaluateAll qs (q.evaluate s).store).2.get r = _
    rw [rest]
    simp only [evaluateAll, assignedInTurn, List.zip_cons_cons, List.filterMap_cons]
    cases q.assigned (q.evaluate s) s r with
    | none => rfl
    | some v => simp only [List.getLast?_cons, Option.getD_some]

/-- No request has anything for a parameter, even if its solution has an entry under the name of it. -/
theorem assignedInTurn_parameter (constructed : ∀ q ∈ qs, q.model.Constructed s) {r : Ref}
    (parameter : (s.get r).kind = .parameter) (es : List Evaluation) : assignedInTurn qs es s r = [] := by
  apply List.filterMap_eq_nil_iff.2
  rintro ⟨q, e⟩ hpair
  have absent : r ∉ q.model.decision := fun hr => by
    rw [(constructed q (List.of_mem_zip hpair).1).lawful.decision r hr] at parameter
    cases parameter
  have nothing : ∀ entries, entryFor s q.model.decision entries r = none := fun entries => if_neg absent
  simp only [Request.assigned, nothing]
  split
  · cases q.chance.solution? <;> rfl
  · rfl

/-- Each request comes to what it would come to alone. -/
theorem evaluateAll_results (constructed : ∀ q ∈ qs, q.model.Constructed s) :
    (evaluateAll qs s).1.map (fun e => (e.result, e.calls)) =
      qs.map fun q => ((q.evaluate s).result, (q.evaluate s).calls) := by
  induction qs generalizing s with
  | nil => rfl
  | cons q qs ih =>
    obtain ⟨first, others⟩ := List.forall_mem_cons.1 constructed
    have run := Request.evaluate_leads first
    have same : (qs.map fun q' => ((q'.evaluate (q.evaluate s).store).result,
        (q'.evaluate (q.evaluate s).store).calls)) =
        qs.map fun q' => ((q'.evaluate s).result, (q'.evaluate s).calls) :=
      List.map_congr_left fun q' hq' => by
        obtain ⟨result, calls⟩ := Request.evaluate_later (others q' hq') run
        rw [result, calls]
    have rest := ih fun q' hq' => (others q' hq').leads run
    simp only [evaluateAll, List.map_cons, rest, same]

theorem evaluateAll_append (before after : List Request) (s : Store) :
    (evaluateAll (before ++ after) s).2 = (evaluateAll after (evaluateAll before s).2).2 := by
  induction before generalizing s with
  | nil => rfl
  | cons q before ih => exact ih _

/-- A request that does not find its model satisfiable leaves the variables as it finds them. -/
theorem evaluateAll_unsatisfied {before : List Request} {q : Request}
    (constructed : ∀ q' ∈ before ++ [q], q'.model.Constructed s) (unsatisfied : (q.evaluate s).result ≠ .ok true) :
    (evaluateAll (before ++ [q]) s).2 = (evaluateAll before s).2 := by
  have run := evaluateAll_leads fun q' hq' => constructed q' (List.mem_append_left _ hq')
  obtain ⟨result, -⟩ := Request.evaluate_later (constructed q (by simp)) run
  rw [evaluateAll_append]
  rcases Request.evaluate_cases q (evaluateAll before s).2 with assigns | kept
  · exact absurd (result ▸ assigns.satisfiable) unsatisfied
  · exact kept.store

/-- A request for the small model, by what comes of the process. -/
def smallRequest (outcome : Outcome) : Request where
  model := Model.small
  solver := "gecode"
  setting := .given { executable := .str "minizinc" }
  chance := { workspace := "/tmp/run", outcome := outcome }

end ZincModel.Solver
