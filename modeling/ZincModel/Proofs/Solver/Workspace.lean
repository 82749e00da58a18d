import ZincModel.Proofs.Files
import ZincModel.Proofs.Solver.Sequence
import ZincModel.Solver.Workspace

/-!
# The course of an evaluation

What an evaluation does outside of the program, told as one of five histories (`Course`). In each of them a process is
started at most once, on a model file that holds the program; only what that process leaves is read; and the workspace
is removed in the end, with all that was done in it (`run_orderly`). The evaluation comes to what it comes to without
the files.
-/

namespace ZincModel.Solver

open Solution

variable {files : Files} {deeds : List Deed}

/-! ## Deeds in a row -/

/-- The files after all the deeds. -/
def filesAfter (deeds : List Deed) (files : Files) : Files := deeds.foldl (fun files d => d.change files) files

/-- The deed changes nothing outside of the directory. -/
def Deed.IsWithin (directory : Path) : Deed → Prop
  | create text => directory <+: Path.ofText text
  | write path _ => directory <+: Path.ofText path
  | start call _ => directory <+: Path.ofText (call.directory ++ "/" ++ outputName)
  | read _ => True
  | remove text => directory <+: Path.ofText text

/-- One deed: without the directory the files are as they were. -/
theorem Deed.IsWithin.place_none {directory : Path} {d : Deed} (h : d.IsWithin directory) (files : Files) :
    (d.change files).place directory none = files.place directory none := by
  cases d with
  | create text => rw [change_create, Files.place_place_none h]
  | write path bytes => rw [change_write, Files.place_place_none h]
  | start call output =>
    cases output with
    | none => rfl
    | some entry => rw [change_start_some, Files.place_place_none h]
  | read path => rfl
  | remove text => rw [change_remove, Files.place_place_none h]

/-- Deeds in a row. -/
theorem filesAfter_place_none {directory : Path} (h : ∀ d ∈ deeds, d.IsWithin directory) (files : Files) :
    (filesAfter deeds files).place directory none = files.place directory none := by
  induction deeds generalizing files with
  | nil => rfl
  | cons d deeds ih =>
    obtain ⟨first, others⟩ := List.forall_mem_cons.1 h
    exact (ih others (d.change files)).trans (first.place_none files)

theorem filesAfter_append (before after : List Deed) (files : Files) :
    filesAfter (before ++ after) files = filesAfter after (filesAfter before files) :=
  List.foldl_append

/-! ## The workspace -/

theorem Chance.outputPath_eq (chance : Chance) : chance.outputPath = chance.workspace ++ "/tmp.out" := by
  rw [outputPath, String.append_assoc]
  rfl

section Workspace

variable {chance : Chance} (fresh : files.find? (Path.ofText chance.workspace) = none)

include fresh

theorem workspace_ne_empty : chance.workspace ≠ "" := by
  intro empty
  rw [empty] at fresh
  have inward := (Files.find?_eq_none_iff.1 fresh).1.1
  revert inward
  decide

theorem ofText_modelPath : Path.ofText chance.modelPath = Path.ofText chance.workspace ++ ["tmp.mzn"] := by
  have text : chance.modelPath = chance.workspace ++ "/" ++ "tmp.mzn" := by
    rw [String.append_assoc]
    rfl
  rw [text, Path.ofText_append (workspace_ne_empty fresh) (by decide) (by decide) (by decide)]

theorem ofText_outputPath : Path.ofText chance.outputPath = Path.ofText chance.workspace ++ ["tmp.out"] :=
  Path.ofText_append (workspace_ne_empty fresh) (by decide) (by decide) (by decide)

/-- In a new workspace the model file holds what was written to it. -/
theorem find?_modelPath (bytes : List UInt8) :
    (filesAfter [.create chance.workspace, .write chance.modelPath bytes] files).find?
      (Path.ofText chance.modelPath) = some (.file bytes false) := by
  simp only [filesAfter, List.foldl_cons, List.foldl_nil, Deed.change_write]
  rw [ofText_modelPath fresh]
  exact Files.find?_place (Files.own_append (by decide) _).1 _

/-- In a new workspace the output is what the process has left. -/
theorem find?_outputPath (bytes : List UInt8) {call : Call} (here : call.directory = chance.workspace)
    (output : Option Entry) :
    (filesAfter [.create chance.workspace, .write chance.modelPath bytes, .start call output] files).find?
      (Path.ofText chance.outputPath) = output := by
  have place : Path.ofText (call.directory ++ "/" ++ outputName) = Path.ofText chance.workspace ++ ["tmp.out"] := by
    rw [here]
    exact ofText_outputPath fresh
  have name : "tmp.out" ∉ ["..", "/", "dev", "null", "tmp"] := by decide
  obtain ⟨own, elsewhere⟩ := Files.own_append name (Path.ofText chance.workspace)
  rw [ofText_outputPath fresh]
  cases output with
  | some entry =>
    simp only [filesAfter, List.foldl_cons, List.foldl_nil, Deed.change_start_some, place]
    exact Files.find?_place own entry
  | none =>
    simp only [filesAfter, List.foldl_cons, List.foldl_nil, Deed.change_start_none, Deed.change_write,
      Deed.change_create, ofText_modelPath fresh]
    rw [Files.find?_eq_none_iff]
    refine ⟨own, ?_, elsewhere⟩
    intro e he below
    -- an entry is older than the workspace, or it is the workspace, or the model file
    rcases Files.mem_place.1 he with ⟨he, -⟩ | rfl
    · rcases Files.mem_place.1 he with ⟨he, -⟩ | rfl
      · have free := (Files.find?_eq_none_iff.1 fresh).2.1 e he
        exact free ((List.prefix_append _ _).trans below)
      · simpa using below.length_le
    · have same := below.eq_of_length (by simp)
      simp at same

end Workspace

/-! ## Courses -/

/-- The process that is started for a problem. -/
inductive Starts (configured : Except Fault Config) (p : Problem) (solver : String) (chance : Chance) : Call → Prop
  | mk {config : Config} {executable : String} {source : List Char} : configured = .ok config →
    config.executable = .str executable → executable ≠ "" → chance.unwritable = none → p.source = .ok source →
    Starts configured p solver chance
      ⟨command executable chance.modelPath chance.outputPath solver, chance.workspace, config.timeout, source⟩

theorem Starts.directory {configured : Except Fault Config} {p : Problem} {solver : String} {chance : Chance}
    {call : Call} (h : Starts configured p solver chance call) : call.directory = chance.workspace := by
  cases h
  rfl

/-- What is done in the course of an evaluation, with the result and the variables that it comes to. -/
inductive Course (configured : Except Fault Config) (p : Problem) (solver : String) (chance : Chance) (s : Store) :
    List Deed → Except Fault Bool → Store → Prop
  /-- There is no executable. -/
  | idle {f : Fault} : (∀ config, configured = .ok config → config.executable.isTrue = false) →
    Course configured p solver chance s [] (.error f) s
  /-- There is no program, or it cannot be written. -/
  | unwritten {config : Config} {f : Fault} : configured = .ok config → config.executable.isTrue = true →
    (∀ source, p.source = .ok source → chance.unwritable ≠ none) →
    Course configured p solver chance s [.create chance.workspace, .remove chance.workspace] (.error f) s
  /-- The executable is no text. -/
  | unstarted {config : Config} {bytes : List UInt8} {f : Fault} : configured = .ok config →
    config.executable.isTrue = true →
    Course configured p solver chance s
      [.create chance.workspace, .write chance.modelPath bytes, .remove chance.workspace] (.error f) s
  /-- The process does not end well. -/
  | failed {call : Call} {f : Fault} : Starts configured p solver chance call →
    Course configured p solver chance s
      [.create chance.workspace, .write chance.modelPath (Text.Utf8.encode call.source),
        .start call chance.outcome.output?, .remove chance.workspace] (.error f) s
  /-- The process ends well, and its output is read. -/
  | concluded {call : Call} {output : Option Entry} : Starts configured p solver chance call →
    Course configured p solver chance s
      [.create chance.workspace, .write chance.modelPath (Text.Utf8.encode call.source), .start call output,
        .read chance.outputPath, .remove chance.workspace]
      (conclude s p.decision solver output).result (conclude s p.decision solver output).store

/-- An evaluation takes one of the courses, and comes to what it comes to without the files. -/
theorem World.evaluate_course (configured : Except Fault Config × List Log.Record) (p : Problem) (solver : String)
    {chance : Chance} {w : World} (fresh : w.files.find? (Path.ofText chance.workspace) = none) :
    let e := evaluateConfigured configured w.store p solver chance
    ∃ deeds, Course configured.1 p solver chance w.store deeds e.result e.store ∧
      deeds.filterMap Deed.call? = e.calls ∧
      w.evaluate configured p solver chance =
        (e.result, ⟨e.store, filesAfter deeds w.files, w.records ++ e.records, w.history ++ deeds⟩) := by
  unfold World.evaluate evaluateConfigured
  rcases configured with ⟨f | config, records⟩
  · exact ⟨[], .idle (by simp), rfl, by simp [World.note, filesAfter]⟩
  simp only [evaluateProblem]
  cases found : config.requireExecutable with
  | error f =>
    have unset : config.executable.isTrue = false := by
      apply Bool.eq_false_of_not_eq_true
      intro set
      rw [requireExecutable_eq_ok.2 ⟨rfl, set⟩] at found
      cases found
    refine ⟨[], .idle fun config' same => ?_, rfl, by simp [World.note, filesAfter]⟩
    cases same
    exact unset
  | ok executable =>
    simp only [World.within, World.work]
    obtain ⟨executableIs, set⟩ := requireExecutable_eq_ok.1 found
    cases written : (writeModel p.source chance).result with
    | error f =>
      refine ⟨[.create chance.workspace, .remove chance.workspace], .unwritten rfl (executableIs ▸ set) ?_, rfl, ?_⟩
      · intro source program writable
        rw [writeModel_eq_ok.2 ⟨writable, program⟩] at written
        cases written
      · simp [World.note, World.perform, filesAfter]
    | ok source =>
      obtain ⟨writable, program⟩ := writeModel_eq_ok.1 written
      cases executable with
      | str executable =>
        have proper : executable ≠ "" := by simpa [Value.isTrue] using set
        have starts : Starts (.ok config) p solver chance
            ⟨command executable chance.modelPath chance.outputPath solver, chance.workspace, config.timeout, source⟩ :=
          .mk rfl executableIs proper writable program
        have calls := invoke_calls executable solver config.timeout source chance
        dsimp only
        cases ended : (invoke executable solver config.timeout source chance).result with
        | error f =>
          refine ⟨_, .failed starts, ?_, ?_⟩
          · rw [calls]
            rfl
          · simp [calls, filesAfter, World.note, World.perform]
        | ok output =>
          obtain ⟨stderr, finished⟩ := invoke_eq_ok ended
          refine ⟨_, .concluded starts, ?_, ?_⟩
          · rw [calls]
            rfl
          · have left := find?_outputPath fresh (Text.Utf8.encode source) starts.directory output
            simp only [filesAfter, List.foldl_cons, List.foldl_nil, Deed.change_create, Deed.change_write] at left
            simp [calls, filesAfter, World.note, World.perform, World.conclude, left, finished, Outcome.output?]
      | _ =>
        -- the command is noted as one text, and that is not to be had from any other value
        exact ⟨[.create chance.workspace, .write chance.modelPath (Text.Utf8.encode source),
          .remove chance.workspace], .unstarted rfl (executableIs ▸ set), rfl,
          by simp [World.note, World.perform, filesAfter]⟩

/-! ## What stands in a course -/

section Course

variable {configured : Except Fault Config} {p : Problem} {solver : String} {chance : Chance} {s s' : Store}
  {result : Except Fault Bool} {before after : List Deed}

/-- A process is started after the program is written, and nothing else. -/
theorem Course.at_start (course : Course configured p solver chance s deeds result s') {call : Call}
    {output : Option Entry} (h : deeds = before ++ .start call output :: after) :
    Starts configured p solver chance call ∧
      before = [.create chance.workspace, .write chance.modelPath (Text.Utf8.encode call.source)] := by
  cases course with
  | idle _ => simp at h
  | unwritten _ _ _ => simp [List.cons_eq_append_iff] at h
  | unstarted _ _ => simp [List.cons_eq_append_iff] at h
  | failed starts | concluded starts =>
    simp only [List.cons_eq_append_iff, List.cons.injEq, reduceCtorEq, false_and, and_false, Deed.start.injEq,
      List.nil_eq, List.append_eq_nil_iff, exists_const, or_self, or_false, ↓existsAndEq, true_and, false_or] at h
    obtain ⟨rfl, ⟨rfl, -⟩, -⟩ := h
    exact ⟨starts, rfl⟩

/-- The output is read after a process has left it, and the evaluation comes to what is concluded from it. -/
theorem Course.at_read (course : Course configured p solver chance s deeds result s') {path : String}
    (h : deeds = before ++ .read path :: after) :
    ∃ call output, Starts configured p solver chance call ∧ path = chance.outputPath ∧
      before = [.create chance.workspace, .write chance.modelPath (Text.Utf8.encode call.source),
        .start call output] ∧
      result = (conclude s p.decision solver output).result ∧ s' = (conclude s p.decision solver output).store := by
  cases course with
  | idle _ => simp at h
  | unwritten _ _ _ => simp [List.cons_eq_append_iff] at h
  | unstarted _ _ => simp [List.cons_eq_append_iff] at h
  | failed starts => simp [List.cons_eq_append_iff] at h
  | concluded starts =>
    simp only [List.cons_eq_append_iff, List.cons.injEq, reduceCtorEq, false_and, and_false, Deed.read.injEq,
      List.nil_eq, List.append_eq_nil_iff, exists_const, or_self, or_false, ↓existsAndEq, true_and, false_or] at h
    obtain ⟨rfl, rfl, -⟩ := h
    exact ⟨_, _, starts, rfl, rfl, rfl, rfl⟩

/-- A verdict is concluded from an output that was read. -/
theorem Course.read_of_verdict {verdict : Bool}
    (course : Course configured p solver chance s deeds (.ok verdict) s') : .read chance.outputPath ∈ deeds := by
  generalize e : (.ok verdict : Except Fault Bool) = result at course
  cases course with
  | concluded _ => simp
  | _ => cases e

theorem Course.calls_length_le (course : Course configured p solver chance s deeds result s') :
    (deeds.filterMap Deed.call?).length ≤ 1 := by
  cases course with
  | idle _ | unwritten _ | unstarted _ _ => exact Nat.zero_le 1
  | failed _ | concluded _ => exact Nat.le_refl 1

/-- Without an executable nothing is done. -/
theorem Course.eq_nil (course : Course configured p solver chance s deeds result s')
    (unset : ∀ config, configured = .ok config → config.executable.isTrue = false) : deeds = [] := by
  have apart {config : Config} (given : configured = .ok config) : ¬config.executable.isTrue = true := by
    simp [unset config given]
  cases course with
  | idle _ => rfl
  | unwritten given set _ => exact absurd set (apart given)
  | unstarted given set => exact absurd set (apart given)
  | failed starts | concluded starts =>
    obtain ⟨given, set, proper, -, -⟩ := starts
    exact absurd (by simp [set, Value.isTrue, proper]) (apart given)

/-- Without a program in the model file no process is started. -/
theorem Course.calls_eq_nil (course : Course configured p solver chance s deeds result s')
    (unwritten : ∀ source, p.source = .ok source → chance.unwritable ≠ none) :
    deeds.filterMap Deed.call? = [] := by
  cases course with
  | idle _ | unwritten _ _ _ | unstarted _ _ => rfl
  | failed starts | concluded starts =>
    obtain ⟨-, -, -, writable, program⟩ := starts
    exact absurd writable (unwritten _ program)

/-- Either nothing is done, or all is done in the workspace, and the workspace is removed in the end. -/
theorem Course.isWithin (course : Course configured p solver chance s deeds result s')
    (fresh : files.find? (Path.ofText chance.workspace) = none) :
    deeds = [] ∨ ∃ inside : List Deed, deeds = inside ++ [.remove chance.workspace] ∧
      ∀ d ∈ inside, d.IsWithin (Path.ofText chance.workspace) := by
  have create : (Deed.create chance.workspace).IsWithin (Path.ofText chance.workspace) := List.prefix_rfl
  have write (bytes : List UInt8) : (Deed.write chance.modelPath bytes).IsWithin (Path.ofText chance.workspace) := by
    show Path.ofText chance.workspace <+: Path.ofText chance.modelPath
    rw [ofText_modelPath fresh]
    exact List.prefix_append _ _
  have start {call : Call} (starts : Starts configured p solver chance call) (output : Option Entry) :
      (Deed.start call output).IsWithin (Path.ofText chance.workspace) := by
    show Path.ofText chance.workspace <+: Path.ofText (call.directory ++ "/" ++ outputName)
    rw [starts.directory, ← Chance.outputPath, ofText_outputPath fresh]
    exact List.prefix_append _ _
  have read : (Deed.read chance.outputPath).IsWithin (Path.ofText chance.workspace) := trivial
  cases course with
  | idle _ => exact .inl rfl
  | unwritten _ _ _ => exact .inr ⟨[_], rfl, by simp [create]⟩
  | unstarted _ _ => exact .inr ⟨[_, _], rfl, by simp [create, write]⟩
  | failed starts => exact .inr ⟨[_, _, _], rfl, by simp [create, write, start starts]⟩
  | concluded starts => exact .inr ⟨[_, _, _, _], rfl, by simp [create, write, start starts, read]⟩

/-- In the end the files are as they were before. -/
theorem Course.filesAfter_eq (course : Course configured p solver chance s deeds result s')
    (fresh : files.find? (Path.ofText chance.workspace) = none) : filesAfter deeds files = files := by
  rcases course.isWithin fresh with rfl | ⟨inside, rfl, within⟩
  · rfl
  · calc filesAfter (inside ++ [.remove chance.workspace]) files
        = (filesAfter inside files).place (Path.ofText chance.workspace) none := filesAfter_append _ _ _
      _ = files.place (Path.ofText chance.workspace) none := filesAfter_place_none within files
      _ = files := Files.place_none_eq_self (Files.find?_eq_none_iff.1 fresh).2.1

end Course

/-! ## Requests in the file system -/

namespace Request

/-- The request with the files that there are: what it comes to, and what is there then. -/
def run (q : Request) (s : Store) (files : Files) : Except Fault Bool × World :=
  World.evaluate q.setting.configured (problemOf s q.model) q.solver q.chance { store := s, files := files }

/-- What a request leaves behind, and what it has done in which order. -/
structure Orderly (q : Request) (s : Store) (files : Files) (result : Except Fault Bool) (w : World) : Prop where
  /-- It comes to what it comes to without the files. -/
  same : result = (q.evaluate s).result ∧ w.store = (q.evaluate s).store ∧ w.records = (q.evaluate s).records ∧
    w.calls = (q.evaluate s).calls
  once : w.calls.length ≤ 1
  /-- Without an executable nothing is done, and there is no workspace at any time. -/
  idle : (∀ config, q.setting.configured.1 = .ok config → config.executable.isTrue = false) → w.history = []
  unrendered : (∀ source, Program.source s q.model ≠ .ok source) → w.calls = []
  unwritten : q.chance.unwritable ≠ none → w.calls = []
  /-- When the process is started in the workspace, the model file there holds the program. -/
  start : ∀ before call output after, w.history = before ++ .start call output :: after →
    ∃ config executable source, q.setting.configured.1 = .ok config ∧ config.executable = .str executable ∧
      Program.source s q.model = .ok source ∧ call.directory = q.chance.workspace ∧ .create call.directory ∈ before ∧
      (filesAfter before files).find? (Path.ofText (call.directory ++ "/tmp.mzn")) =
        some (.file (Text.Utf8.encode source) false) ∧
      call.arguments = [executable, call.directory ++ "/tmp.mzn", "-o", call.directory ++ "/tmp.out", "--solver",
        q.solver, "--output-mode", "json"] ∧
      call.timeout = config.timeout
  /-- What is read is the output in the directory of the process, and the request comes to what it says. -/
  read : ∀ before path after, w.history = before ++ .read path :: after →
    (∃ call output, .start call output ∈ before ∧ path = call.directory ++ "/tmp.out") ∧
      let conclusion := conclude s q.model.decision q.solver ((filesAfter before files).find? (Path.ofText path))
      result = conclusion.result ∧ w.store = conclusion.store
  /-- There is no verdict but from what was read. -/
  verdict : ∀ verdict, result = .ok verdict → ∃ path, .read path ∈ w.history
  /-- What was done leaves the files as they were before, without the workspace. -/
  removed : filesAfter w.history files = w.files ∧ w.files = files

/-- A request takes one of the courses, and comes to what it comes to without the files. -/
theorem run_course {q : Request} {files : Files} (fresh : files.find? (Path.ofText q.chance.workspace) = none)
    (s : Store) :
    ∃ deeds, Course q.setting.configured.1 (problemOf s q.model) q.solver q.chance s deeds (q.evaluate s).result
        (q.evaluate s).store ∧
      deeds.filterMap Deed.call? = (q.evaluate s).calls ∧
      q.run s files = ((q.evaluate s).result,
        ⟨(q.evaluate s).store, filesAfter deeds files, (q.evaluate s).records, deeds⟩) := by
  obtain ⟨deeds, course, calls, ran⟩ := World.evaluate_course q.setting.configured (problemOf s q.model) q.solver
    (w := { store := s, files := files }) fresh
  rw [← evaluate_eq q s] at course calls ran
  exact ⟨deeds, course, calls, ran⟩

/-- A request to evaluate a model, in a workspace that is new. Whatever it comes to, it starts at most one process,
and not before the program for the model is in the model file; it tells the process to leave its output beside that
file, and reads nothing else; and in the end there is no workspace. -/
theorem run_orderly {q : Request} {files : Files} (fresh : files.find? (Path.ofText q.chance.workspace) = none)
    (s : Store) : q.Orderly s files (q.run s files).1 (q.run s files).2 := by
  obtain ⟨deeds, course, calls, run⟩ := run_course fresh s
  rw [run]
  exact {
    same := ⟨rfl, rfl, rfl, calls⟩
    once := course.calls_length_le
    idle := course.eq_nil
    unrendered := by
      intro none
      exact course.calls_eq_nil fun source program => absurd program (none source)
    unwritten := by
      intro unwritable
      exact course.calls_eq_nil fun _ _ => unwritable
    start := by
      intro before call output after split
      obtain ⟨starts, rfl⟩ := course.at_start split
      obtain ⟨given, set, -, -, program⟩ := starts
      refine ⟨_, _, _, given, set, program, rfl, by simp, ?_, ?_, rfl⟩
      · exact find?_modelPath fresh _
      · rw [command, Chance.outputPath_eq]
        rfl
    read := by
      intro before path after split
      obtain ⟨call, output, starts, rfl, rfl, result, store⟩ := course.at_read split
      have here : call.directory = q.chance.workspace := starts.directory
      refine ⟨⟨call, output, by simp, by rw [here, Chance.outputPath_eq]⟩, ?_⟩
      rw [find?_outputPath fresh _ here]
      exact ⟨result, store⟩
    verdict := by
      intro verdict h
      simp only at h
      rw [h] at course
      exact ⟨_, course.read_of_verdict⟩
    removed := ⟨rfl, course.filesAfter_eq fresh⟩ }

/-- A solver finds another value of `y`, beside a directory of another process. -/
theorem run_orderly_small :
    let files : Files := [(["/", "tmp", "other"], .directory)]
    let ran := (smallRequest (.finished 0 "" smallOutput)).run Model.smallStore files
    ran.1 = .ok true ∧ ran.2.calls.length = 1 ∧ ran.2.files = files := by
  have fresh : Files.find? [(["/", "tmp", "other"], .directory)] (Path.ofText "/tmp/run") = none := by
    decide +kernel
  have verdict : ((smallRequest (.finished 0 "" smallOutput)).evaluate Model.smallStore).result = .ok true := by
    decide +kernel
  have one : ((smallRequest (.finished 0 "" smallOutput)).evaluate Model.smallStore).calls.length = 1 := by
    decide +kernel
  have orderly := run_orderly (q := smallRequest (.finished 0 "" smallOutput)) fresh Model.smallStore
  obtain ⟨result, -, -, calls⟩ := orderly.same
  dsimp only
  rw [result, calls]
  exact ⟨verdict, one, orderly.removed.2⟩

end Request

end ZincModel.Solver
