import Mathlib.Data.List.Forall2
import ZincModel.Solver.Evaluation

/-!
# Evaluations in other workspaces

The name of a workspace is up to chance. An evaluation under another name comes to the same, leaves the variables the
same, and starts the same process but for this name (`evaluate_relocated`). Only where the model file cannot be written
does the fault say which file it is.
-/

namespace ZincModel.Solver

/-- The process that is started in a workspace. -/
def Call.inside (workspace executable solver : String) (timeout : Value) (source : List Char) : Call :=
  ⟨command executable (workspace ++ "/tmp.mzn") (workspace ++ "/" ++ outputName) solver, workspace, timeout, source⟩

/-- The second process is the first one in another workspace. -/
inductive Call.Relocated (workspace workspace' : String) : Call → Call → Prop
  | intro (executable solver : String) (timeout : Value) (source : List Char) :
    Relocated workspace workspace' (.inside workspace executable solver timeout source)
      (.inside workspace' executable solver timeout source)

/-- The results are the same, but that faults about the model file name different files. -/
inductive RelocatedResult : Except Fault Bool → Except Fault Bool → Prop
  | refl (r : Except Fault Bool) : RelocatedResult r r
  | unwritten (path path' : String) (cause : FileFault) :
    RelocatedResult (.error (.modelUnwritten path cause)) (.error (.modelUnwritten path' cause))

/-- The second evaluation is the first one in another workspace. -/
structure Evaluation.Relocated (workspace workspace' : String) (e e' : Evaluation) : Prop where
  result : RelocatedResult e.result e'.result
  store : e'.store = e.store
  calls : List.Forall₂ (Call.Relocated workspace workspace') e.calls e'.calls

variable (chance : Chance) (workspace : String)

theorem invoke_relocated (executable solver : String) (timeout : Value) (source : List Char) :
    let run := invoke executable solver timeout source chance
    let run' := invoke executable solver timeout source { chance with workspace := workspace }
    run'.result = run.result ∧ List.Forall₂ (Call.Relocated chance.workspace workspace) run.calls run'.calls := by
  have calls : List.Forall₂ (Call.Relocated chance.workspace workspace)
      [.inside chance.workspace executable solver timeout source]
      [.inside workspace executable solver timeout source] :=
    .cons (.intro executable solver timeout source) .nil
  unfold invoke
  dsimp only
  cases chance.outcome with
  | finished returncode stderr output =>
    dsimp only
    split
    · exact ⟨rfl, calls⟩
    · exact ⟨rfl, calls⟩
  | _ => exact ⟨rfl, calls⟩

theorem evaluateProblem_relocated (s : Store) (p : Problem) (solver : String) (config : Config) :
    (evaluateProblem s p solver config chance).Relocated chance.workspace workspace
      (evaluateProblem s p solver config { chance with workspace := workspace }) := by
  obtain ⟨old, unwritable, outcome, explain⟩ := chance
  unfold evaluateProblem
  cases config.requireExecutable with
  | error f => exact ⟨.refl _, rfl, .nil⟩
  | ok executable =>
    dsimp only
    unfold writeModel
    cases p.source with
    | error f => exact ⟨.refl _, rfl, .nil⟩
    | ok source =>
      cases unwritable with
      | some complaint => exact ⟨.unwritten _ _ _, rfl, .nil⟩
      | none =>
        dsimp only
        split
        · next executable =>
          obtain ⟨result, calls⟩ :=
            invoke_relocated ⟨old, none, outcome, explain⟩ workspace executable solver config.timeout source
          dsimp only at result calls
          rw [result]
          split
          · exact ⟨.refl _, rfl, calls⟩
          · exact ⟨.refl _, rfl, calls⟩
        · exact ⟨.refl _, rfl, .nil⟩

theorem evaluate_relocated (s : Store) (m : Model) (solver : String) (config : Config) :
    (evaluate s m solver config chance).Relocated chance.workspace workspace
      (evaluate s m solver config { chance with workspace := workspace }) :=
  evaluateProblem_relocated chance workspace s (problemOf s m) solver config

end ZincModel.Solver
