import ZincModel.Proofs.Program.Rendering
import ZincModel.Proofs.Solution.Reading
import ZincModel.Solver.Evaluation

/-!
# Verdicts

What an evaluation comes to, told from its configuration and from what the process does. The main statement goes
through all results: a model is satisfiable or unsatisfiable only by the word of a process that has ended well, and
every other course of events has a fault of its own (`evaluate_verdict`).
-/

namespace ZincModel.Solver

open Solution

variable {s : Store} {m : Model} {solver : String} {config : Config} {chance : Chance}

/-! ## Refusals -/

/-- Why the library that starts processes gives up by a fault, if it is one of those. -/
def Refusal.ofFault? : Fault → Option Refusal
  | .content .nullByte => some .nullByte
  | .shape (.notAddable kind) => some (.notNumber kind)
  | .tooLarge => some .tooLarge
  | .content .wholeOfNan => some .notANumber
  | .overlong cause => some (.overlong cause)
  | .undecodable cause => some (.undecodable cause)
  | _ => none

theorem Refusal.eq_fault_iff {f : Fault} {cause : Refusal} : f = cause.fault ↔ ofFault? f = some cause := by
  constructor
  · rintro rfl
    cases cause <;> rfl
  · intro h
    unfold ofFault? at h
    split at h <;> cases h <;> rfl

/-! ## Courses of events -/

/-- The configuration has an executable: a text that is not empty. -/
def HasExecutable (config : Config) : Prop := ∃ x, config.executable = .str x ∧ x ≠ ""

/-- The process is started: there is an executable, and the model file is written. -/
def Started (config : Config) (chance : Chance) : Prop := HasExecutable config ∧ chance.unwritable = none

/-- The process is started and comes to an end by itself. -/
def Finished (config : Config) (chance : Chance) (returncode : Int) (stderr : String) (output : Option Entry) :
    Prop :=
  Started config chance ∧ chance.outcome = .finished returncode stderr output

/-! ## Steps -/

theorem requireExecutable_eq_ok {v : Value} :
    config.requireExecutable = .ok v ↔ config.executable = v ∧ v.isTrue = true := by
  unfold Config.requireExecutable
  split
  · next set =>
    rw [Except.ok.injEq]
    constructor
    · rintro rfl
      exact ⟨rfl, set⟩
    · exact And.left
  · next unset =>
    constructor
    · intro h
      cases h
    · rintro ⟨rfl, set⟩
      exact absurd set unset

theorem writeModel_eq_ok {program : Except Fault (List Char)} {source : List Char} :
    (writeModel program chance).result = .ok source ↔ chance.unwritable = none ∧ program = .ok source := by
  unfold writeModel
  cases program <;> cases chance.unwritable <;> simp

/-- One process is started, whatever comes of it. -/
theorem invoke_calls (executable solver : String) (timeout : Value) (source : List Char) (chance : Chance) :
    (invoke executable solver timeout source chance).calls =
      [⟨command executable chance.modelPath chance.outputPath solver, chance.workspace, timeout, source⟩] := by
  unfold invoke
  dsimp only
  split
  · rfl
  · rfl
  · rfl
  · rfl
  · rfl
  · split <;> rfl
  · rfl

/-! ## Results -/

theorem requireExecutable_of_str {x : String} (h : config.executable = .str x) (ne : x ≠ "") :
    config.requireExecutable = .ok (.str x) := by
  simp [Config.requireExecutable, h, Value.isTrue, ne]

theorem requireExecutable_of_not (h : config.executable = .null ∨ ∃ x, config.executable = .str x)
    (none : ¬ HasExecutable config) : config.requireExecutable = .error (.configuration .executableUnset) := by
  rcases h with h | ⟨x, h⟩
  · simp [Config.requireExecutable, h, Value.isTrue]
  · have empty : x = "" := Decidable.byContradiction fun ne => none ⟨x, h, ne⟩
    simp [Config.requireExecutable, h, Value.isTrue, empty]

theorem evaluate_result_of_not (h : config.executable = .null ∨ ∃ x, config.executable = .str x)
    (none : ¬ HasExecutable config) :
    (evaluate s m solver config chance).result = .error (.configuration .executableUnset) := by
  simp only [evaluate, evaluateProblem, requireExecutable_of_not h none]

theorem evaluate_result_of_unwritable (h : HasExecutable config) {complaint : String}
    (hw : chance.unwritable = some complaint) {source : List Char} (hs : Program.source s m = .ok source) :
    (evaluate s m solver config chance).result =
      .error (.modelUnwritten chance.modelPath (.unwritable complaint)) := by
  obtain ⟨x, hx, ne⟩ := h
  simp only [evaluate, evaluateProblem, requireExecutable_of_str hx ne, writeModel, hw, problemOf, hs]

theorem evaluate_result_of_unrendered (h : HasExecutable config) {f : Fault} (hs : Program.source s m = .error f) :
    (evaluate s m solver config chance).result = .error f := by
  obtain ⟨x, hx, ne⟩ := h
  simp only [evaluate, evaluateProblem, requireExecutable_of_str hx ne, writeModel, problemOf, hs]

/-- The result of what a process that has ended well leaves. -/
theorem conclude_result (s : Store) (decision : List Ref) (solver : String) (output : Option Entry) :
    (conclude s decision solver output).result =
      match parse (artifactText output) with
      | .error f => .error f
      | .ok (some _) => .ok true
      | .ok none =>
        if Text.occurs unsatMarker (firstLine output) then .ok false
        else .error (.inconclusive solver (String.ofList (firstLine output))) := by
  have status := interpret_status s decision output
  unfold conclude
  dsimp only
  rw [status]
  rcases parse (artifactText output) with _ | _ | solution
  · rfl
  · cases Text.occurs unsatMarker (firstLine output) <;> rfl
  · rfl

/-- The result when the process is started, by what comes of it. -/
theorem evaluate_result_of_started {x : String} {source : List Char} (hx : config.executable = .str x)
    (ne : x ≠ "") (hw : chance.unwritable = none) (hs : Program.source s m = .ok source) :
    (evaluate s m solver config chance).result =
      match chance.outcome with
      | .notFound => .error (.solverMissing x)
      | .notPermitted => .error (.solverNotRunnable x)
      | .notExecutable => .error (.file (.notExecutable x))
      | .unstarted number reason path => .error (.file (.system number reason path))
      | .timedOut => config.timeout.textString >>= fun shown => .error (.process (.timedOut solver shown))
      | .finished returncode stderr output =>
        if returncode = 0 then (conclude s m.decision solver output).result
        else .error (.process (.exited solver returncode stderr))
      | .refused cause => .error cause.fault := by
  simp only [evaluate, evaluateProblem, requireExecutable_of_str hx ne, writeModel, hw, problemOf, hs, invoke]
  cases chance.outcome with
  | timedOut => cases e : config.timeout.textString <;> rfl
  | finished returncode stderr output =>
    dsimp only
    by_cases h : returncode = 0
    · simp only [if_pos h]
    · simp only [if_neg h]
  | _ => rfl

/-! ## All verdicts -/

/-- A model is evaluated, with an executable that is a text or not set and, where time is over, a time limit that can
be shown. Each result belongs to its own course of events: satisfiable and unsatisfiable to an end with status zero
and what the output says then, whatever it says after any other end. -/
theorem evaluate_verdict (constructed : m.Constructed s)
    (executable : config.executable = .null ∨ ∃ x, config.executable = .str x)
    (writable : m.IsWritable s) (timeout : chance.outcome = .timedOut → config.timeout.isShort = true)
    (readable : ∀ stderr output, chance.outcome = .finished 0 stderr output → Readable output) :
    let result := (evaluate s m solver config chance).result
    (result = .ok true ↔
      ∃ stderr output entries, Finished config chance 0 stderr output ∧ Holds output entries) ∧
    (result = .ok false ↔ ∃ stderr output, Finished config chance 0 stderr output ∧ Denies output) ∧
    (∀ first, (∃ name, result = .error (.inconclusive name first)) ↔
      ∃ stderr output, Finished config chance 0 stderr output ∧
        (¬ ∃ entries, Holds output entries) ∧ ¬ Denies output ∧ first = String.ofList (firstLine output)) ∧
    (∀ returncode stderr,
      (∃ cause, result = .error (.process cause) ∧ cause.returncode = some returncode ∧ cause.stderr = stderr) ↔
      returncode ≠ 0 ∧ ∃ output, Finished config chance returncode stderr output) ∧
    ((∃ cause, result = .error (.process cause) ∧ cause.returncode = none) ↔
      Started config chance ∧ chance.outcome = .timedOut) ∧
    ((∃ x, result = .error (.solverMissing x)) ↔ Started config chance ∧ chance.outcome = .notFound) ∧
    ((∃ x, result = .error (.solverNotRunnable x)) ↔ Started config chance ∧ chance.outcome = .notPermitted) ∧
    ((∃ cause, result = .error (.file cause)) ↔ Started config chance ∧
      (chance.outcome = .notExecutable ∨ ∃ number reason path, chance.outcome = .unstarted number reason path)) ∧
    ((∃ path cause, result = .error (.modelUnwritten path cause)) ↔
      HasExecutable config ∧ chance.unwritable ≠ none) ∧
    ((∃ cause, result = .error (.configuration cause)) ↔ ¬ HasExecutable config) ∧
    ∀ cause : Refusal, result = .error cause.fault ↔ Started config chance ∧ chance.outcome = .refused cause := by
  intro result
  by_cases has : HasExecutable config
  swap
  · have e : result = _ := evaluate_result_of_not executable has
    simp [e, Started, Finished, has, Refusal.eq_fault_iff, Refusal.ofFault?]
  obtain ⟨source, hs⟩ := Program.source_isOk constructed.lawful writable
  rcases hw : chance.unwritable with _ | complaint
  swap
  · have e : result = _ := evaluate_result_of_unwritable has hw hs
    simp [e, Started, Finished, has, hw, Refusal.eq_fault_iff, Refusal.ofFault?]
  obtain ⟨x, hx, ne⟩ := id has
  have e : result = _ := evaluate_result_of_started hx ne hw hs
  cases ho : chance.outcome with
  | timedOut =>
    obtain ⟨shown, text⟩ := Value.textString_isOk (timeout ho)
    rw [ho] at e
    simp only [text, Except.ok_bind] at e
    simp [e, Started, Finished, has, hw, ho, ProcessFault.returncode, Refusal.eq_fault_iff, Refusal.ofFault?]
  | finished returncode stderr output =>
    rw [ho] at e
    dsimp only at e
    by_cases zero : returncode = 0
    · subst zero
      rw [if_pos rfl, conclude_result] at e
      obtain ⟨solution, parsed⟩ := (readable stderr output ho).parse_isOk
      have entries : ∀ es, Holds output es ↔ solution = some es := fun es => by
        rw [Holds, parsed, Except.ok.injEq]
      have denies : Denies output ↔ solution = none ∧ Text.occurs unsatMarker (firstLine output) = true := by
        rw [Denies, parsed, Except.ok.injEq]
      rw [parsed] at e
      have apart : ∀ returncode : Int, ¬ returncode = 0 → ¬ 0 = returncode := fun _ h => Ne.symm h
      cases solution with
      | some es => simpa [e, Started, Finished, has, hw, ho, entries, denies] using apart
      | none =>
        cases marked : Text.occurs unsatMarker (firstLine output) with
        | true => simpa [e, Started, Finished, has, hw, ho, entries, denies, marked] using apart
        | false =>
          simpa [e, Started, Finished, has, hw, ho, entries, denies, marked, ProcessFault.returncode,
            Refusal.eq_fault_iff, Refusal.ofFault?] using
            ⟨fun first => eq_comm, apart⟩
    · rw [if_neg zero] at e
      simp [e, Started, Finished, has, hw, ho, zero, ProcessFault.returncode, ProcessFault.stderr,
        Refusal.eq_fault_iff, Refusal.ofFault?]
  | unstarted number reason path =>
    rw [ho] at e
    simp [e, Started, Finished, has, hw, ho, Refusal.eq_fault_iff, Refusal.ofFault?]
  | refused cause =>
    rw [ho] at e
    cases cause <;> dsimp only [Refusal.fault] at e <;>
      simp [e, Started, Finished, has, hw, ho, Refusal.eq_fault_iff, Refusal.ofFault?]
  | _ =>
    rw [ho] at e
    simp [e, Started, Finished, has, hw, ho, Refusal.eq_fault_iff, Refusal.ofFault?]

/-- The small model, for which a solver finds another value of `y`. -/
theorem evaluate_verdict_small :
    (evaluate Model.smallStore Model.small "gecode" { executable := .str "minizinc" }
      { workspace := "/tmp/run", outcome := .finished 0 "" smallOutput }).result = .ok true :=
  (evaluate_verdict Model.constructed_small (.inr ⟨_, rfl⟩) (by decide +kernel) (fun _ => rfl)
    fun _ _ h => by cases h; exact readable_smallOutput).1.2
    ⟨"", smallOutput, _, ⟨⟨⟨_, rfl, by decide⟩, rfl⟩, rfl⟩, holds_smallOutput⟩

end ZincModel.Solver
