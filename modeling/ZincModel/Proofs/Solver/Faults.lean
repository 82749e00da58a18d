import ZincModel.Proofs.Solver.Starting
import ZincModel.Proofs.Solver.Verdict

/-!
# Faults of evaluations

Most faults of an evaluation are faults of this library: the configuration, the model file, the process or its output
is to blame, and the fault says which (`Fault.isOwn`). The others come from below and are passed on as they are
(`Stray`): the operating system does not start a process for a reason other than that the executable is missing or may
not be run, the library that starts processes gives up by itself, or an integer has more digits than can be read or
written. Nothing else gets out of an evaluation, and for the process that is started it is known when the first two
happen (`evaluate_strays`).
-/

namespace ZincModel

/-- The fault is one of this library, not one that comes from below. -/
def Fault.isOwn : Fault → Bool
  | model _ => true
  | duplicateName _ => true
  | configuration _ => true
  | solverMissing _ => true
  | solverNotRunnable _ => true
  | modelUnwritten .. => true
  | process _ => true
  | inconclusive .. => true
  | _ => false

namespace Solver

open Solution

/-- The faults that an evaluation passes on as they are, by what they come from. -/
inductive Stray (s : Store) (m : Model) (config : Config) (chance : Chance) : Fault → Prop
  /-- The program has an integer with too many digits. -/
  | program : HasExecutable config → Program.source s m = .error (.content .integerUnwritable) →
    ¬m.IsWritable s → Stray s m config chance (.content .integerUnwritable)
  /-- The executable is there and may be run, but is nothing that can be. -/
  | start {x : String} {source : List Char} : Started config chance → Program.source s m = .ok source →
    config.executable = .str x → chance.outcome = .notExecutable →
    Stray s m config chance (.file (.notExecutable x))
  /-- The operating system has another reason not to start a process. -/
  | system {source : List Char} {number : Nat} {reason : String} {path : Option String} : Started config chance →
    Program.source s m = .ok source → chance.outcome = .unstarted number reason path →
    Stray s m config chance (.file (.system number reason path))
  /-- The library that starts processes gives up. -/
  | refused {source : List Char} {cause : Refusal} : Started config chance → Program.source s m = .ok source →
    chance.outcome = .refused cause → Stray s m config chance cause.fault
  /-- The time limit has an integer with too many digits, and time is over. -/
  | timeout {source : List Char} : Started config chance → Program.source s m = .ok source →
    chance.outcome = .timedOut → config.timeout.textString = .error (.content .integerUnwritable) →
    config.timeout.isShort = false → Stray s m config chance (.content .integerUnwritable)
  /-- The solution has an integer with too many digits. -/
  | solution {source : List Char} {stderr : String} {output : Option Entry} {n : Nat} :
    Finished config chance 0 stderr output → Program.source s m = .ok source →
    parse (artifactText output) = .error (.content (.integerUnreadable n)) →
    HasRun (firstPart (artifactText output)) n → Stray s m config chance (.content (.integerUnreadable n))

variable {s : Store} {m : Model} {solver : String} {config : Config} {chance : Chance}

/-- What is passed on is no fault of this library, and it is what the evaluation comes to. -/
theorem Stray.result {f : Fault} (h : Stray s m config chance f) (solver : String) :
    (evaluate s m solver config chance).result = .error f ∧ f.isOwn = false := by
  cases h with
  | program has unwritten _ => exact ⟨evaluate_result_of_unrendered has unwritten, rfl⟩
  | start starts written hx outcome =>
    obtain ⟨y, hy, ne⟩ := starts.1
    rw [hx] at hy
    cases hy
    rw [evaluate_result_of_started hx ne starts.2 written, outcome]
    exact ⟨rfl, rfl⟩
  | system starts written outcome =>
    obtain ⟨x, hx, ne⟩ := starts.1
    rw [evaluate_result_of_started hx ne starts.2 written, outcome]
    exact ⟨rfl, rfl⟩
  | @refused _ cause starts written outcome =>
    obtain ⟨x, hx, ne⟩ := starts.1
    rw [evaluate_result_of_started hx ne starts.2 written, outcome]
    refine ⟨rfl, ?_⟩
    cases cause <;> rfl
  | timeout starts written outcome unshown _ =>
    obtain ⟨x, hx, ne⟩ := starts.1
    rw [evaluate_result_of_started hx ne starts.2 written, outcome, unshown]
    exact ⟨rfl, rfl⟩
  | solution finished written unread _ =>
    obtain ⟨starts, outcome⟩ := finished
    obtain ⟨x, hx, ne⟩ := starts.1
    rw [evaluate_result_of_started hx ne starts.2 written, outcome]
    dsimp only
    rw [if_pos rfl, conclude_result, unread]
    exact ⟨rfl, rfl⟩

/-- Where a process has ended well, nothing is passed on but that an integer in the solution cannot be read. -/
theorem conclude_ends (s : Store) (decision : List Ref) (solver : String) (output : Option Entry) :
    Except.Ends (fun f => f.isOwn = true ∨ ∃ n, f = .content (.integerUnreadable n) ∧
        parse (artifactText output) = .error f ∧ HasRun (firstPart (artifactText output)) n)
      (fun _ => True) (conclude s decision solver output).result := by
  have parses := parse_ends (artifactText output)
  rw [conclude_result]
  split
  · next f e =>
    rw [e] at parses
    obtain ⟨n, rfl, run⟩ := parses.fault
    exact .error (.inr ⟨n, rfl, e, run⟩)
  · exact .ok trivial
  · exact .ite (.ok trivial) (.error (.inl rfl))

/-- A fault that is none of this library, once the process is started. -/
theorem stray_of_started (starts : Started config chance) {source : List Char}
    (written : Program.source s m = .ok source) {f : Fault}
    (h : (evaluate s m solver config chance).result = .error f) (foreign : f.isOwn = false) :
    Stray s m config chance f := by
  obtain ⟨x, hx, ne⟩ := starts.1
  rw [evaluate_result_of_started hx ne starts.2 written] at h
  cases outcome : chance.outcome with
  | notFound | notPermitted =>
    rw [outcome] at h
    cases h
    cases foreign
  | notExecutable =>
    rw [outcome] at h
    cases h
    exact .start starts written hx outcome
  | unstarted number reason path =>
    rw [outcome] at h
    cases h
    exact .system starts written outcome
  | refused cause =>
    rw [outcome] at h
    cases h
    exact .refused starts written outcome
  | timedOut =>
    rw [outcome] at h
    have shows := config.timeout.textString_ends
    cases e : config.timeout.textString with
    | ok shown =>
      rw [e] at h
      cases h
      cases foreign
    | error f' =>
      rw [e] at h shows
      cases h
      obtain ⟨rfl, long⟩ := shows.fault
      exact .timeout starts written outcome e long
  | finished returncode stderr output =>
    rw [outcome] at h
    dsimp only at h
    by_cases zero : returncode = 0
    · subst zero
      rw [if_pos rfl] at h
      have ends := conclude_ends s m.decision solver output
      rw [h] at ends
      rcases ends.fault with own | ⟨n, rfl, unread, run⟩
      · rw [foreign] at own
        cases own
      · exact .solution ⟨starts, outcome⟩ written unread run
    · rw [if_neg zero] at h
      cases h
      cases foreign

/-- A fault that is none of this library is one of those that are passed on. -/
theorem stray_of_result (lawful : m.Lawful s) {x : String} (hx : config.executable = .str x) {f : Fault}
    (h : (evaluate s m solver config chance).result = .error f) (foreign : f.isOwn = false) :
    Stray s m config chance f := by
  by_cases has : HasExecutable config
  swap
  · rw [evaluate_result_of_not (.inr ⟨x, hx⟩) has] at h
    cases h
    cases foreign
  have program := Program.source_ends lawful
  cases hs : Program.source s m with
  | error f' =>
    rw [evaluate_result_of_unrendered has hs] at h
    cases h
    rw [hs] at program
    obtain ⟨rfl, long⟩ := program.fault
    exact .program has hs long
  | ok source =>
    rcases hw : chance.unwritable with _ | complaint
    · exact stray_of_started ⟨has, hw⟩ hs h foreign
    · rw [evaluate_result_of_unwritable has hw hs] at h
      cases h
      cases foreign

/-- A model is evaluated, with an executable that is a text. The faults of this library apart, exactly those that come
from below get out. Whatever happens when the process is started, it is known when the operating system and the library
that starts processes are the ones to stop it, and the text for a time that is over can always be shown. -/
theorem evaluate_strays (constructed : m.Constructed s) (executable : ∃ x, config.executable = .str x)
    (solver : String) :
    (∀ f, ((evaluate s m solver config chance).result = .error f ∧ f.isOwn = false) ↔ Stray s m config chance f) ∧
    ∀ call ∈ (evaluate s m solver config chance).calls, ∀ h : Happening,
      (∀ number reason path, call.outcome h = some (.unstarted number reason path) ↔
        Denied call h number reason path ∧ number ∉ [1, 2, 8, 13]) ∧
      (∀ cause, call.outcome h = some (.refused cause) ↔ Refuses call h cause) ∧
      (call.outcome h = some .timedOut → call.timeout.isShort = true) := by
  obtain ⟨x, hx⟩ := executable
  refine ⟨fun f => ⟨?_, fun stray => stray.result solver⟩, fun call _ h => ⟨?_, ?_, ?_⟩⟩
  · rintro ⟨h, foreign⟩
    exact stray_of_result constructed.lawful hx h foreign
  · exact fun number reason path => Call.outcome_eq_unstarted
  · exact fun cause => Call.outcome_eq_refused
  · exact Call.isShort_of_timedOut

/-- With the small model, what is passed on about an executable that is not one comes from starting it. -/
theorem evaluate_strays_small :
    Stray Model.smallStore Model.small { executable := .str "minizinc" }
      { workspace := "/tmp/run", outcome := .notExecutable } (.file (.notExecutable "minizinc")) := by
  have failed : (evaluate Model.smallStore Model.small "gecode" { executable := .str "minizinc" }
      { workspace := "/tmp/run", outcome := .notExecutable }).result = .error (.file (.notExecutable "minizinc")) := by
    decide +kernel
  exact ((evaluate_strays Model.constructed_small ⟨"minizinc", rfl⟩ "gecode").1 _).1 ⟨failed, rfl⟩

/-- With an executable that is not one, what the operating system says about it is passed on. -/
theorem evaluate_notExecutable :
    ∃ f, (evaluate Model.smallStore Model.small "gecode" { executable := .str "minizinc" }
      { workspace := "/tmp/run", outcome := .notExecutable }).result = .error f ∧ f.isOwn = false :=
  ⟨.file (.notExecutable "minizinc"), by decide +kernel, rfl⟩

end Solver

end ZincModel
