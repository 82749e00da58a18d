import ZincModel.CommandLine.Run
import ZincModel.Proofs.Model.Escaping
import ZincModel.Proofs.Solver.Faults
import ZincModel.Proofs.Solver.Sequence

/-!
# What each stage of a run comes to

A run loads a model, finds the configuration of the solver, and evaluates the model. Each of these stages succeeds, or
it has a fault that the program complains about itself, or something gets past: bytes that are no text, scalars that
stand for nothing, numbers with too many digits, a process that the library for processes gives up on. What that can be
is said for each stage
(`Model.ofFile_ends`, `Config.resolve_ends`, `Solver.evaluateProblem_ends`).
-/

namespace ZincModel

open Except (Ends)
open CommandLine (isHandled)

/-- The program complains about all faults of this library. -/
theorem Fault.isHandled_of_isOwn {f : Fault} (h : f.isOwn = true) : isHandled f = true := by
  cases f with
  | model | duplicateName | configuration | solverMissing | solverNotRunnable => rfl
  | modelUnwritten | process | inconclusive => rfl
  | _ => cases h

theorem Fault.IsOfModel.isHandled {f : Fault} (h : f.IsOfModel) : isHandled f = true := by
  cases f with
  | model => rfl
  | duplicateName => rfl
  | _ => cases h

/-! ## Files -/

namespace Files

variable {fs : Files} {path : String}

/-- The operating system says why there is no entry at a path, unless the path is none for it. -/
theorem locate_ends (fs : Files) (path : String) :
    Ends (fun f => (∃ cause, f = .file cause) ∨ f = .content .nullByte ∧ '\x00' ∈ path.toList) (fun _ => True)
      (fs.locate path) := by
  have places : Ends (fun f => (∃ cause, f = .file cause) ∨ f = .content .nullByte ∧ '\x00' ∈ path.toList)
      (fun _ => True) (fs.placeOf path) := by
    unfold placeOf
    split
    · next null => exact .error (.inr ⟨rfl, by simpa using null⟩)
    · refine .ite (.error (.inl ⟨_, rfl⟩)) (.ite (.error (.inl ⟨_, rfl⟩)) ?_)
      have walks : Ends (fun _ => True) (fun _ => True)
          (fs.walk (Path.start path.toList) .directory (Path.parts path.toList)) :=
        .of_forall (fun _ _ => trivial) fun _ _ => trivial
      exact walks.mapError fun _ _ => .inl ⟨_, rfl⟩
  refine places.bind fun place _ => ?_
  cases place with
  | taken => exact .ok trivial
  | vacant => exact .error (.inl ⟨_, rfl⟩)

theorem readBytes_ends (fs : Files) (path : String) :
    Ends (fun f => (∃ cause, f = .file cause) ∨ f = .content .nullByte ∧ '\x00' ∈ path.toList) (fun _ => True)
      (fs.readBytes path) := by
  refine (fs.locate_ends path).bind fun entry _ => ?_
  cases entry with
  | file bytes => exact .ok trivial
  | directory => exact .error (.inl ⟨_, rfl⟩)

end Files

/-! ## Models -/

namespace Model

/-- What gets past where a model is loaded. -/
inductive Unloaded (files : Files) (path : String) (first : Nat) : Fault → Prop
  /-- The path has a character that no path can have. -/
  | path : '\x00' ∈ path.toList → Unloaded files path first (.content .nullByte)
  /-- The bytes in the file are no text. -/
  | bytes {bytes : List UInt8} {cause : Text.Utf8.Malformed} :
    files.readBytes path = .ok bytes → Text.Utf8.decode bytes = .error cause →
    Unloaded files path first (.undecodable cause)
  | json {text : List Char} {n : Nat} :
    files.readText path = .ok text → HasRun text n → Unloaded files path first (.content (.integerUnreadable n))
  | yaml {text : List Char} {f : Fault} :
    files.readText path = .ok text → f ≠ .yaml → Escapes text first f → Unloaded files path first f

theorem ofFile_ends (files : Files) (path : String) (s : Store) :
    Ends (fun f => isHandled f = true ∨ Unloaded files path s.nextNumber f) (Restored s (ofFile files path s).2)
      (ofFile files path s).1 := by
  have reads : Ends (fun f => isHandled f = true ∨ Unloaded files path s.nextNumber f) (fun _ => True)
      (files.readText path) := by
    refine .of_forall (fun _ _ => trivial) fun f fault => ?_
    unfold Files.readText at fault
    have bytes := files.readBytes_ends path
    cases e : files.readBytes path with
    | error f' =>
      rw [e] at fault bytes
      cases fault
      rcases bytes.fault with ⟨cause, rfl⟩ | ⟨rfl, null⟩
      · exact .inl rfl
      · exact .inr (.path null)
    | ok bytes =>
      rw [e, Except.ok_bind] at fault
      cases decoded : Text.Utf8.decode bytes with
      | error cause =>
        rw [decoded] at fault
        cases fault
        exact .inr (.bytes e decoded)
      | ok text =>
        rw [decoded] at fault
        cases fault
  unfold ofFile
  cases e : files.readText path with
  | error f =>
    rw [e] at reads
    exact .error reads.fault
  | ok text =>
    dsimp only
    unfold ofText
    split
    · refine (ofJson_ends text s).mono ?_ fun _ => id
      rintro f (refused | ⟨n, rfl, run⟩)
      · exact .inl refused.isHandled
      · exact .inr (.json e run)
    · refine (ofYaml_ends text s).mono ?_ fun _ => id
      rintro f (refused | ⟨apart, escapes⟩)
      · exact .inl refused.isHandled
      · exact .inr (.yaml e apart escapes)

end Model

/-! ## Configurations -/

namespace Config

/-- The environment names a configuration file, and this is its text. -/
def Given (env : Environment) (input : Yaml.Input) : Prop :=
  ∃ path pieces beyond, env.nonempty? executableVariable = none ∧ env.nonempty? fileVariable = some path ∧
    env.files.readPieces path Yaml.Input.pieceSize = .ok (pieces, beyond) ∧ input = .ofPieces pieces beyond

/-- What gets past where a configuration is found. -/
inductive Unresolved (env : Environment) : Fault → Prop
  /-- The text of the configuration file cannot be read. -/
  | unread {input : Yaml.Input} {f : Fault} : Given env input → Yaml.Unread input f → Unresolved env f
  /-- The time limit in it is no number. -/
  | timeout {input : Yaml.Input} {data v : Value} {next : Nat} {f : Fault} :
    Given env input → Yaml.read 2 input = .ok (data, next) → data.entry? "timeout" = .ok (some v) →
    seconds v = .error f → Unresolved env f

theorem ofValue_ends (path : String) (data : Value) :
    Ends (fun f => isHandled f = true ∨ ∃ v, data.entry? "timeout" = .ok (some v) ∧ seconds v = .error f)
      (fun c => c.timeout.isShort = true) (ofValue path data) := by
  unfold ofValue
  split
  · next l entries e =>
    have limit {v : Value} (found : Value.lookup "timeout" entries = some v) :
        Ends (fun f => isHandled f = true ∨ ∃ v, data.entry? "timeout" = .ok (some v) ∧ seconds v = .error f)
          (fun timeout : Value => timeout.isShort = true) ((seconds v).map .ofDouble) := by
      refine Ends.map (P := fun _ => True) (.of_forall (fun _ _ => trivial) fun f fault => ?_) fun _ _ => rfl
      refine .inr ⟨v, ?_, fault⟩
      split at e
      · unfold Value.entry?
        rw [e]
        exact congrArg Except.ok found
      · cases e
        cases found
    dsimp only
    split
    · exact .ok rfl
    · next notNull =>
      cases found : Value.lookup "timeout" entries with
      | none => exact (notNull (by rw [found]; rfl)).elim
      | some v =>
        refine (limit found).bind fun timeout short => ?_
        exact .ok short
  · exact .error (.inl rfl)

/-- A configuration file that is there can be read, unless it is a directory or has a wrong text. -/
theorem load_ends {env : Environment} {path : String} (unset : env.nonempty? executableVariable = none)
    (named : env.nonempty? fileVariable = some path) (there : env.files.exists? path = true) :
    Ends (fun f => isHandled f = true ∨ Unresolved env f) (fun c => c.timeout.isShort = true)
      (load env.files path) := by
  unfold load
  cases read : env.files.readPieces path Yaml.Input.pieceSize with
  | error f =>
    refine .error (.inl ?_)
    unfold Files.exists? at there
    split at there
    · next entry located =>
      cases entry with
      | file => simp [Files.readPieces, Files.readBytes, located] at read
      | directory =>
        simp [Files.readPieces, Files.readBytes, located] at read
        rw [← read]
        rfl
    · cases there
  | ok text =>
    obtain ⟨pieces, beyond⟩ := text
    have given : Given env (.ofPieces pieces beyond) := ⟨path, pieces, beyond, unset, named, read, rfl⟩
    rw [Except.ok_bind]
    cases e : Yaml.read 2 (.ofPieces pieces beyond) with
    | error f =>
      have reads := Yaml.read_ends 2 (.ofPieces pieces beyond)
      rw [e] at reads
      dsimp only
      rw [e]
      exact .error (.inr (.unread given reads.fault))
    | ok result =>
      obtain ⟨data, next⟩ := result
      dsimp only
      rw [e]
      refine (ofValue_ends path data).mono ?_ fun _ => id
      rintro f (handled | ⟨v, entry, fault⟩)
      · exact .inl handled
      · exact .inr (.timeout given e entry fault)

theorem resolve_ends (env : Environment) :
    Ends (fun f => isHandled f = true ∨ Unresolved env f) (fun c => c.timeout.isShort = true) (resolve env).1 := by
  unfold resolve
  split
  · exact .ok rfl
  · next unset =>
    split
    · next path named =>
      split
      · next there => exact load_ends unset named there
      · exact .error (.inl rfl)
    · split
      · exact .ok rfl
      · exact .ok rfl

end Config

/-! ## Evaluations -/

namespace Solver

/-- What gets past where a problem is evaluated. -/
inductive Unconcluded (p : Problem) (config : Config) (chance : Chance) : Fault → Prop
  /-- There is no program. -/
  | program {f : Fault} : p.source = .error f → Unconcluded p config chance f
  /-- The executable is no text. -/
  | executable : (∀ t, config.executable ≠ .str t) →
    Unconcluded p config chance (.shape (.notText 0 config.executable.fullKind))
  /-- The library that starts processes gives up. -/
  | refused {cause : Refusal} : chance.outcome = .refused cause → Unconcluded p config chance cause.fault
  /-- The solution has an integer with too many digits. -/
  | solution {stderr : String} {output : Option Entry} {n : Nat} :
    chance.outcome = .finished 0 stderr output → HasRun (Solution.firstPart (Solution.artifactText output)) n →
    Unconcluded p config chance (.content (.integerUnreadable n))

theorem invoke_ends (executable solver : String) {timeout : Value} (short : timeout.isShort = true)
    (source : List Char) (chance : Chance) :
    Ends (fun f => isHandled f = true ∨ ∃ cause : Refusal, f = cause.fault ∧ chance.outcome = .refused cause)
      (fun output => ∃ stderr, chance.outcome = .finished 0 stderr output)
      (invoke executable solver timeout source chance).result := by
  refine .of_forall (fun output => invoke_eq_ok) fun f fault => ?_
  obtain ⟨shown, text⟩ := Value.textString_isOk short
  unfold invoke at fault
  dsimp only at fault
  split at fault
  · cases fault
    exact .inl rfl
  · cases fault
    exact .inl rfl
  · cases fault
    exact .inl rfl
  · cases fault
    exact .inl rfl
  · rw [text] at fault
    cases fault
    exact .inl rfl
  · split at fault
    · cases fault
    · cases fault
      exact .inl rfl
  · next cause refused =>
    cases fault
    exact .inr ⟨cause, rfl, refused⟩

/-- A problem is evaluated to a verdict, to a complaint, or to what gets past. -/
theorem evaluateProblem_ends (s : Store) (p : Problem) (solver : String) {config : Config}
    (short : config.timeout.isShort = true) (chance : Chance) :
    Ends (fun f => isHandled f = true ∨ Unconcluded p config chance f) (fun _ => True)
      (evaluateProblem s p solver config chance).result := by
  have noted {f : Fault} (h : isHandled f = true) :
      Ends (fun f => isHandled f = true ∨ Unconcluded p config chance f) (fun _ : Bool => True) (.error f) :=
    .error (.inl h)
  unfold evaluateProblem
  split
  · next f missing =>
    unfold Config.requireExecutable at missing
    split at missing
    · cases missing
    · cases missing
      exact noted rfl
  · next executable found =>
    obtain ⟨same, -⟩ := requireExecutable_eq_ok.1 found
    cases program : p.source with
    | error f =>
      simp only [writeModel]
      exact .error (.inr (.program program))
    | ok source =>
      cases unwritable : chance.unwritable with
      | some complaint =>
        simp only [writeModel, unwritable]
        exact noted rfl
      | none =>
        simp only [writeModel, unwritable]
        split
        · next x =>
          have run := invoke_ends x solver short source chance
          split
          · next e =>
            rw [e] at run
            rcases run.fault with handled | ⟨cause, rfl, refused⟩
            · exact noted handled
            · exact .error (.inr (.refused refused))
          · next output e =>
            rw [e] at run
            obtain ⟨stderr, finished⟩ := run.result
            refine (conclude_ends s p.decision solver output).mono ?_ fun _ => id
            rintro f (own | ⟨n, rfl, -, digits⟩)
            · exact .inl (Fault.isHandled_of_isOwn own)
            · exact .inr (.solution finished digits)
        · next noText =>
          rw [← same] at noText ⊢
          exact .error (.inr (.executable noText))

end Solver

end ZincModel
