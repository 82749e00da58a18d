import ZincModel.Proofs.Log.Sent
import ZincModel.Proofs.Success

/-!
# Set-ups

A set-up either fails because of its level, and changes nothing, or it takes away all handlers and then installs new
ones, unless it fails because its file cannot be opened (`setup_cases`). So from a set-up on each record that is to be
written goes once to the standard error and once to the file, whatever set-ups there were before and whatever files
there are (`delivered_since_setup`). After one that could not open its file no line is written any more, and what the
last resort shows of the records is their messages (`setup_failing`).
-/

namespace ZincModel.Log

/-- What is done with a log. -/
inductive Step where
  | setup (level logFile : Value)
  | send (e : Sent)

namespace State

/-- One step, with the state that it leaves. -/
def step (s : State) : Step → State
  | .setup level logFile => (s.setup level logFile).2
  | .send e => (s.send e).2

/-- The state after steps at a site, some of which may fail. -/
def after (site : Site) (steps : List Step) : State := steps.foldl step { site := site }

/-- The files that have been opened. -/
def paths (s : State) : List Path := s.files.map (·.1)

/-- The state after a set-up that succeeds. -/
def configured (least : Int) (file : Option Path) (s : State) : State :=
  { (file.map fun path => s.clear path).getD s with
    level := least, decisions := [], handlers := (Service.installed file).handlers least }

/-- The state after a set-up that could not open its file. -/
def unhandled (least : Int) (s : State) : State := { s with level := least, decisions := [], handlers := [] }

variable {s : State} {level logFile : Value}

/-- All that a set-up can come to. -/
theorem setup_cases (level logFile : Value) (s : State) :
    (∃ f, levelOf level = .error f ∧ s.setup level logFile = (.error f, s)) ∨
    ∃ least, levelOf level = .ok least ∧
      ((∃ f, s.site.fileOf s.paths logFile = .error f ∧ s.setup level logFile = (.error f, s.unhandled least)) ∨
        ∃ file, s.site.fileOf s.paths logFile = .ok file ∧
          s.setup level logFile = (.ok (), s.configured least file)) := by
  unfold setup paths
  cases levelOf level with
  | error f => exact .inl ⟨f, rfl, rfl⟩
  | ok least =>
    refine .inr ⟨least, rfl, ?_⟩
    cases opened : s.site.fileOf (s.files.map (·.1)) logFile with
    | error f => exact .inl ⟨f, rfl, rfl⟩
    | ok file =>
      refine .inr ⟨file, rfl, ?_⟩
      cases file <;> rfl

/-- The site stays the same. -/
theorem site_step (s : State) : ∀ step : Step, (s.step step).site = s.site
  | .setup level logFile => by
    rcases setup_cases level logFile s with ⟨f, -, e⟩ | ⟨least, -, ⟨f, -, e⟩ | ⟨file, -, e⟩⟩
    · rw [State.step, e]
    · rw [State.step, e]
      rfl
    · rw [State.step, e]
      cases file <;> rfl
  | .send e => site_send e s

theorem site_after (site : Site) (steps : List Step) : (after site steps).site = site := by
  have kept : ∀ s : State, s.site = site → (steps.foldl step s).site = site := by
    induction steps with
    | nil => exact fun s same => same
    | cons step steps ih => exact fun s same => ih (s.step step) ((site_step s step).trans same)
  exact kept { site := site } rfl

/-! ## Set-ups that succeed -/

/-- A set-up starts with nothing sent. -/
theorem serves_configured (least : Int) (file : Option Path) (s : State) :
    (s.configured least file).Serves (.installed file) least s.parts [] where
  level := rfl
  handlers := rfl
  used := by cases file <;> rfl
  decisions _ := rfl

theorem site_configured (least : Int) (file : Option Path) (s : State) : (s.configured least file).site = s.site := by
  cases file <;> rfl

theorem content?_configured (least : Int) (file : Option Path) (s : State) (path : Path) :
    (s.configured least file).content? path = if file = some path then some [] else s.content? path := by
  cases file with
  | none => rfl
  | some target =>
    have cleared : (s.configured least (some target)).content? path = (s.clear target).content? path := rfl
    rw [cleared, content?_clear]
    simp [eq_comm]

/-- A set-up that succeeds has a level, and a file just if one is named. -/
theorem configured_of_ok (done : (s.setup level logFile).1 = .ok ()) :
    ∃ least file, levelOf level = .ok least ∧ s.site.fileOf s.paths logFile = .ok file ∧
      (s.setup level logFile).2 = s.configured least file := by
  rcases setup_cases level logFile s with ⟨f, -, e⟩ | ⟨least, number, ⟨f, -, e⟩ | ⟨file, opened, e⟩⟩
  · rw [e] at done
    cases done
  · rw [e] at done
    cases done
  · exact ⟨least, file, number, opened, by rw [e]⟩

theorem isSome_of_fileOf {site : Site} {files : List Path} {file : Option Path}
    (h : site.fileOf files logFile = .ok file) : file.isSome = logFile.isTrue := by
  unfold Site.fileOf at h
  cases named : logFile.isTrue with
  | false =>
    rw [named] at h
    cases h
    rfl
  | true =>
    simp only [named, Bool.not_true, Bool.false_eq_true, if_false] at h
    split at h
    · obtain ⟨path, -, rfl⟩ := Except.map_eq_ok.1 h
      rfl
    · cases h

/-- **From a set-up on**, whatever was done before it, the standard error gets what the records bring (`shownOf`), and
the file of the set-up holds the lines of those that are written and nothing else, unless it is the one that stays
empty; no other file changes. A record whose part belongs to the program, now and when the first one of its level was
sent to it, brings its line to both in its place if its level is high enough, and else nothing. Parts below the program
always belong to it. -/
theorem delivered_since_setup (site : Site) (steps : List Step) {level logFile : Value} {least : Int}
    (number : levelOf level = .ok least) (set : least ≠ 0)
    (done : ((after site steps).setup level logFile).1 = .ok ()) (sent : List Sent) :
    let s := after site steps
    let run := (s.setup level logFile).2.sendAll sent
    let shown := shownOfAll site true least s.parts
    let filed := written least s.parts
    run.1 = shown [] sent ∧
    (∃ file, site.fileOf s.paths logFile = .ok file ∧ file.isSome = logFile.isTrue ∧ ∀ path, run.2.content? path =
      if file = some path then some (if path = Path.nullDevice then [] else (filed [] sent).flatMap Sent.line)
      else s.content? path) ∧
    (∀ before e more, sent = before ++ e :: more → 0 < e.level → isWithin s.parts before e = true →
      wasWithin s.parts before e = true →
      shown [] sent = shown [] before ++ (if least ≤ e.level then e.line else []) ++ shown (before ++ [e]) more ∧
      filed [] sent = filed [] before ++ (if least ≤ e.level then [e] else []) ++ filed (before ++ [e]) more) ∧
    ((∀ e ∈ sent, IsBelow e.logger ∧ 0 < e.level) →
      shown [] sent = (sent.filter fun e => least ≤ e.level).flatMap Sent.line ∧
        filed [] sent = sent.filter fun e => least ≤ e.level) := by
  obtain ⟨least', file, number', opened, e⟩ := configured_of_ok done
  obtain rfl : least = least' := Except.ok.inj (number.symm.trans number')
  obtain ⟨output, files⟩ := (serves_configured least file (after site steps)).sendAll sent
  rw [site_configured, site_after] at output
  rw [site_after] at opened
  rw [← e] at output files
  refine ⟨output, ⟨file, opened, isSome_of_fileOf opened, fun path => ?_⟩, ?_, ?_⟩
  · rw [files path, e, content?_configured]
    by_cases here : file = some path
    · by_cases null : path = Path.nullDevice <;> simp [Service.file?, here, null]
    · simp [Service.file?, here]
  · rintro before e more rfl positive within first
    have taken : isTaken least e.level = true ↔ least ≤ e.level := by simp [isTaken, positive]
    constructor
    · rw [shownOfAll_append, shownOfAll, List.nil_append, shownOf_of_within set within first, List.append_assoc]
      simp only [taken]
    · have place := written_at least (after site steps).parts [] before e more
      simpa only [List.nil_append, isWritten_of_within set within first, taken] using place
  · intro own
    have belong : ∀ e ∈ sent, Belongs e.logger := fun e he => belongs_of_isBelow (own e he).1
    have taken : sent.filter (fun e => isTaken least e.level) = sent.filter fun e => least ≤ e.level :=
      List.filter_congr fun e he => by simp [isTaken, (own e he).2]
    rw [shownOfAll_of_belongs belong set, written_of_belongs belong set, taken]
    exact ⟨rfl, rfl⟩

/-- A directory for logs, besides the working directory. -/
def logSite : Site where
  here := ["home"]
  files := [(["/", "var", "log"], .directory)]

/-- A log that is set up, writes a record, and fails to be set up anew. -/
def earlier : List Step :=
  [.setup (.int 10) (.str "old.log"), .send ⟨"mznbridge.runner", 10, "Running".toList⟩,
    .setup (.int 20) (.str "missing/run.log")]

/-- Three records, the first one with a lower level than the others. -/
def rising : List Sent :=
  [⟨"mznbridge.results", 10, "Ignoring".toList⟩, ⟨"mznbridge.evaluation", 20, "SAT".toList⟩,
    ⟨"mznbridge", 35, "Done".toList⟩]

/-- The lines of the two others. -/
def risen : List Char :=
  "HH:MM:SS INFO    mznbridge.evaluation: SAT\nHH:MM:SS Level 35 mznbridge: Done\n".toList

theorem isBelow_rising : ∀ e ∈ rising, IsBelow e.logger ∧ 0 < e.level := by
  simp only [rising, List.forall_mem_cons]
  exact ⟨⟨.inr ⟨'r', _, rfl, by decide⟩, by decide⟩, ⟨.inr ⟨'e', _, rfl, by decide⟩, by decide⟩, ⟨.inl rfl, by decide⟩,
    by simp⟩

/-- The file of the first set-up keeps what it got before the others. -/
theorem delivered_since_setup_rising :
    let s := after logSite earlier
    (levelOf (.int 20) = .ok 20 ∧ (20 : Int) ≠ 0 ∧ (s.setup (.int 20) (.str "/var/log/run.log")).1 = .ok ()) ∧
      let run := (s.setup (.int 20) (.str "/var/log/run.log")).2.sendAll rising
      run.1 = risen ∧ run.2.content? ["/", "var", "log", "run.log"] = some risen ∧
        run.2.content? ["/", "home", "old.log"] = s.content? ["/", "home", "old.log"] := by
  have done : ((after logSite earlier).setup (.int 20) (.str "/var/log/run.log")).1 = .ok () := by decide +kernel
  have target : logSite.fileOf (after logSite earlier).paths (.str "/var/log/run.log") =
      .ok (some ["/", "var", "log", "run.log"]) := by decide +kernel
  obtain ⟨output, ⟨file, opened, -, files⟩, -, own⟩ :=
    delivered_since_setup logSite earlier rfl (by decide) done rising
  obtain rfl : some ["/", "var", "log", "run.log"] = file := Except.ok.inj (target.symm.trans opened)
  have lines : (rising.filter fun e => (20 : Int) ≤ e.level).flatMap Sent.line = risen := by decide +kernel
  obtain ⟨shown, filed⟩ := own isBelow_rising
  rw [shown, lines] at output
  rw [filed, lines] at files
  have apart : ["/", "var", "log", "run.log"] ≠ Path.nullDevice ∧
      some ["/", "var", "log", "run.log"] ≠ some ["/", "home", "old.log"] := by decide
  refine ⟨⟨rfl, by decide, done⟩, output, ?_, ?_⟩
  · rw [files, if_pos rfl, if_neg apart.1]
  · rw [files, if_neg apart.2]

/-- Two dots follow the name of the program, so the part belongs to it only once the part in front of the second one is
there, but then it is decided already that its records of this level are not taken. -/
theorem delivered_late :
    let s := (({} : State).setup (.int 10) .null).2
    let run := s.sendAll [⟨"mznbridge..x", 20, "first".toList⟩, ⟨"mznbridge.", 20, "second".toList⟩]
    (({} : State).setup (.int 10) .null).1 = .ok () ∧ run.2.owns "mznbridge..x" = true ∧
      (run.2.send ⟨"mznbridge..x", 20, "third".toList⟩).1 = [] := by
  decide +kernel

/-! ## Set-ups that fail -/

/-- A set-up that could not open its file leaves no handlers. -/
theorem serves_unhandled (least : Int) (s : State) : (s.unhandled least).Serves .failed least s.parts [] :=
  ⟨rfl, rfl, rfl, fun _ => rfl⟩

/-- Without handlers no file changes. -/
theorem files_of_unhandled {s : State} (idle : s.handlers = []) (sent : List Sent) :
    (s.sendAll sent).2.files = s.files := by
  induction sent generalizing s with
  | nil => rfl
  | cons e rest ih =>
    have first : (s.send e).2 = s.used e.logger e.level := by
      have handlers : (s.used e.logger e.level).handlers = [] := idle
      rw [send, log, handlers, writeAll]
      split_ifs <;> rfl
    rw [sendAll]
    dsimp only
    rw [first]
    exact ih (s := s.used e.logger e.level) idle

/-- A set-up that fails because of its level leaves the log as it was. One that cannot open its file takes away the
handlers and leaves its level. So until the next set-up no file changes and no line is written: what the standard error
gets is the messages of those records that the last resort shows. Level and handlers are then the same as before only if
there were no handlers and the level was the same. -/
theorem setup_failing (site : Site) (steps : List Step) {level logFile : Value} {f : Fault}
    (failed : ((after site steps).setup level logFile).1 = .error f) :
    let s := after site steps
    let s' := (s.setup level logFile).2
    (levelOf level = .error f ∧ s' = s ∨
      ∃ least, levelOf level = .ok least ∧ site.fileOf s.paths logFile = .error f ∧ s'.level = least ∧
        s'.handlers = [] ∧ s'.files = s.files ∧ ∀ sent, (s'.sendAll sent).2.files = s.files ∧
          (s'.sendAll sent).1 = shownOfAll site false least s.parts [] sent ∧
          ((∀ e ∈ sent, IsBelow e.logger) → (s'.sendAll sent).1 =
            (sent.filter fun e => isTaken (ownLevel least) e.level && site.showsLast e.level).flatMap
              fun e => bareLine e.message)) ∧
    (s'.level = s.level ∧ s'.handlers = s.handlers ↔
      levelOf level = .error f ∨ levelOf level = .ok s.level ∧ s.handlers = []) := by
  dsimp only
  rcases setup_cases level logFile (after site steps) with
    ⟨g, number, e⟩ | ⟨least, number, ⟨g, opened, e⟩ | ⟨file, -, e⟩⟩
  · rw [e] at failed ⊢
    obtain rfl : g = f := Except.error.inj failed
    exact ⟨.inl ⟨number, rfl⟩, by simp [number]⟩
  · rw [e] at failed ⊢
    obtain rfl : g = f := Except.error.inj failed
    rw [site_after] at opened
    have idle : ((after site steps).unhandled least).handlers = [] := rfl
    refine ⟨.inr ⟨least, number, opened, rfl, idle, rfl, fun sent => ?_⟩, ?_⟩
    · obtain ⟨shown, -⟩ := (serves_unhandled least (after site steps)).sendAll sent
      rw [show ((after site steps).unhandled least).site = site from site_after site steps] at shown
      refine ⟨files_of_unhandled idle sent, shown, fun own => ?_⟩
      exact shown.trans (shownOfAll_unserved (fun e he => belongs_of_isBelow (own e he)) site least _ [])
    constructor
    · rintro ⟨level', handlers⟩
      exact .inr ⟨number.trans (congrArg Except.ok level'), handlers.symm⟩
    · rintro (refused | ⟨same, none⟩)
      · cases number.symm.trans refused
      · exact ⟨Except.ok.inj (number.symm.trans same), none.symm⟩
  · rw [e] at failed
    cases failed

/-- A set-up whose file is in no directory. Records from the level of warnings on are still shown, without their
lines. -/
theorem setup_failing_missing :
    let s := after logSite [.setup (.int 10) .null]
    let s' := (s.setup (.int 20) (.str "missing/run.log")).2
    (s.setup (.int 20) (.str "missing/run.log")).1 = .error (.file (.notFound "/home/missing/run.log")) ∧
      s'.level = 20 ∧ s'.handlers = [] ∧ (s'.sendAll rising).1 = "Done\n".toList := by
  intro s s'
  have failed :
      (s.setup (.int 20) (.str "missing/run.log")).1 = .error (.file (.notFound "/home/missing/run.log")) := by
    decide +kernel
  rcases (setup_failing _ _ failed).1 with ⟨number, -⟩ | ⟨least, number, -, level, idle, -, run⟩
  · cases number
  · obtain rfl : 20 = least := Except.ok.inj number
    obtain ⟨-, -, shown⟩ := run rising
    refine ⟨failed, level, idle, (shown fun e he => (isBelow_rising e he).1).trans ?_⟩
    decide +kernel

/-- The record would have been written in a line, as it is without the set-up that failed. -/
theorem setup_failing_loses :
    let s := after logSite [.setup (.int 10) .null]
    let s' := (s.setup (.int 30) (.str "missing/run.log")).2
    let e : Sent := ⟨"mznbridge", 40, "Failed".toList⟩
    (s.setup (.int 30) (.str "missing/run.log")).1 = .error (.file (.notFound "/home/missing/run.log")) ∧
      s'.level ≠ s.level ∧ s'.handlers ≠ s.handlers ∧ (s.send e).1 = e.line ∧ (s'.send e).1 = "Failed\n".toList ∧
      (s'.send e).1 ≠ e.line := by
  decide +kernel

end State

end ZincModel.Log
