import ZincModel.Proofs.Solver.Workspace

/-!
# Requests that share variables and files

Requests that come one after the other share the variables of their models and the files in which they have their
workspaces (`runAll`). Each leaves the files as it has found them, so the next one has a workspace that is new, and no
request reads what another has left. The sequence comes to what it comes to without the files (`runAll_eq`), and what is
known of that holds of it (`evaluateAll_spec`).
-/

namespace ZincModel.Solver

open Solution

variable {s : Store} {files : Files} {qs : List Request}

/-- The requests one after the other on the files that there are: what each of them comes to with what is there then,
and the variables and files in the end. -/
def runAll : List Request → Store → Files → List (Except Fault Bool × World) × Store × Files
  | [], s, files => ([], s, files)
  | q :: rest, s, files =>
    let ran := q.run s files
    let others := runAll rest ran.2.store ran.2.files
    (ran :: others.1, others.2)

/-- Whoever comes next finds the files as they were, and the variables as they are without the files. -/
theorem runAll_eq (fresh : ∀ q ∈ qs, files.find? (Path.ofText q.chance.workspace) = none) (s : Store) :
    (runAll qs s files).1.map (fun ran => (ran.1, ran.2.calls)) =
        (evaluateAll qs s).1.map (fun e => (e.result, e.calls)) ∧
      (runAll qs s files).2 = ((evaluateAll qs s).2, files) := by
  induction qs generalizing s with
  | nil => exact ⟨rfl, rfl⟩
  | cons q qs ih =>
    obtain ⟨first, others⟩ := List.forall_mem_cons.1 fresh
    obtain ⟨deeds, course, calls, run⟩ := Request.run_course first s
    obtain ⟨rest, last⟩ := ih others (q.evaluate s).store
    have called : (q.run s files).2.calls = (q.evaluate s).calls := by
      rw [run]
      exact calls
    simp only [runAll, evaluateAll, List.map_cons, called]
    rw [run, course.filesAfter_eq first, rest, last]
    exact ⟨rfl, rfl⟩

/-- A request comes to the same on the files. -/
theorem Request.run_result {q : Request} (fresh : files.find? (Path.ofText q.chance.workspace) = none) (s : Store) :
    ((q.run s files).1, (q.run s files).2.calls) = ((q.evaluate s).result, (q.evaluate s).calls) := by
  obtain ⟨deeds, -, calls, run⟩ := run_course fresh s
  rw [run, ← calls]
  rfl

/-- Models that share variables are evaluated one after the other. A variable changes in nothing but its value,
which is the one that the last request has for it; a parameter does not change at all, and requests that do not
find their models satisfiable change nothing. All models have the programs and documents that they had, and each
request comes to what it would come to as the first one, also where the requests share files in which the workspace of
each is new, and the files are then as they were. -/
theorem evaluateAll_spec (constructed : ∀ q ∈ qs, q.model.Constructed s) :
    let es := (evaluateAll qs s).1
    let s' := (evaluateAll qs s).2
    (∀ r, s'.get r = { s.get r with value := (assignedInTurn qs es s r).getLast?.getD (s.get r).value }) ∧
    (∀ r, (s.get r).kind = .parameter → s'.get r = s.get r) ∧
    (∀ before q after, qs = before ++ q :: after → (q.evaluate s).result ≠ .ok true →
      (evaluateAll (before ++ [q]) s).2 = (evaluateAll before s).2) ∧
    (∀ m : Model, m.Constructed s → Program.source s' m = Program.source s m ∧ m.toValue s' = m.toValue s) ∧
    es.map (fun e => (e.result, e.calls)) = qs.map (fun q => ((q.evaluate s).result, (q.evaluate s).calls)) ∧
    ∀ files : Files, (∀ q ∈ qs, files.find? (Path.ofText q.chance.workspace) = none) →
      (runAll qs s files).1.map (fun ran => (ran.1, ran.2.calls)) =
          qs.map (fun q => ((q.run s files).1, (q.run s files).2.calls)) ∧
        (runAll qs s files).2 = (s', files) := by
  have run := evaluateAll_leads constructed
  refine ⟨get_evaluateAll constructed, fun r parameter => ?_, fun before q after e => ?_, fun m hm => ?_,
    evaluateAll_results constructed, fun files fresh => ?_⟩
  · rw [get_evaluateAll constructed, assignedInTurn_parameter constructed parameter]
    rfl
  · apply evaluateAll_unsatisfied
    intro q' hq'
    apply constructed q'
    rw [e]
    simp only [List.mem_append, List.mem_cons, List.not_mem_nil, or_false] at hq' ⊢
    exact hq'.imp_right Or.inl
  · rw [Model.source_eq hm.lawful, Model.source_eq (hm.leads run).lawful, Model.toValue_eq, Model.toValue_eq,
      hm.blueprint_eq run]
    exact ⟨rfl, rfl⟩
  · obtain ⟨results, last⟩ := runAll_eq fresh s
    refine ⟨?_, last⟩
    rw [results, evaluateAll_results constructed]
    exact List.map_congr_left fun q hq => (Request.run_result (fresh q hq) s).symm

/-- A value for `y` is found, and a second solution does not count, since its process fails. Both processes have had
one workspace, beside a directory of another one. -/
theorem evaluateAll_spec_small :
    let qs := [smallRequest (.finished 0 "" smallOutput), smallRequest (.finished 1 "interrupted" smallOutput)]
    let s' := (evaluateAll qs Model.smallStore).2
    let files : Files := [(["/", "tmp", "other"], .directory)]
    (s'.get 2).value = .int 3 ∧ Model.small.toValue s' = Model.small.toValue Model.smallStore ∧
      (runAll qs Model.smallStore files).2 = (s', files) := by
  intro qs s' files
  have constructed : ∀ q ∈ qs, q.model.Constructed Model.smallStore := by
    simp [qs, smallRequest, Model.constructed_small]
  have free : files.find? (Path.ofText "/tmp/run") = none := by decide +kernel
  have fresh : ∀ q ∈ qs, files.find? (Path.ofText q.chance.workspace) = none := by simp [qs, smallRequest, free]
  obtain ⟨values, -, -, kept, -, shared⟩ := evaluateAll_spec constructed
  refine ⟨?_, (kept _ Model.constructed_small).2, (shared files fresh).2⟩
  have first : (qs[0].evaluate Model.smallStore).result = .ok true := by decide +kernel
  have second : (qs[1].evaluate (qs[0].evaluate Model.smallStore).store).result =
      .error (.process (.exited "gecode" 1 "interrupted")) := by decide +kernel
  have solution : (qs[0].chance).solution? = some [(.str "y", .int 3)] := solution?_eq rfl holds_smallOutput
  have entry : entryFor Model.smallStore Model.small.decision [(.str "y", .int 3)] 2 = some (.int 3) := by
    have name : Model.smallStore.name 2 = "y" := by decide +kernel
    simp [entryFor, Model.small, name, Value.lookup]
  have found : qs[0].assigned (qs[0].evaluate Model.smallStore) Model.smallStore 2 = some (.int 3) := by
    rw [Request.assigned, first, solution]
    exact entry
  have nothing :
      qs[1].assigned (qs[1].evaluate (qs[0].evaluate Model.smallStore).store) Model.smallStore 2 = none := by
    rw [Request.assigned, second]
  have inTurn : assignedInTurn qs (evaluateAll qs Model.smallStore).1 Model.smallStore 2 = [.int 3] := by
    change List.filterMap _ [(qs[0], qs[0].evaluate Model.smallStore),
      (qs[1], qs[1].evaluate (qs[0].evaluate Model.smallStore).store)] = _
    simp only [List.filterMap_cons, found, nothing, List.filterMap_nil]
  rw [values, inTurn]
  rfl

end ZincModel.Solver
