import ZincModel.Proofs.Yaml.RoundTrip
import ZincModel.Solver.Config

/-!
# Where the executable is found

The executable is offered by a variable, by a configuration file and by the directories of programs. The first offer
counts, unless a configuration file is named that has none: then no program is looked for (`resolve_executable`).
-/

namespace ZincModel.Config

variable {env : Environment} {files : Files} {path : String} {entries : List (Value × Value)}

/-! ## Configuration files -/

/-- What a configuration file has under a key; null if the key is not in it. -/
def field (key : String) (entries : List (Value × Value)) : Value := (Value.lookup key entries).getD .null

/-- A number of seconds, or no limit. -/
inductive IsLimit : Value → Prop
  | null : IsLimit .null
  | bool (b : Bool) : IsLimit (.bool b)
  | int (n : Int) : IsLimit (.int n)
  | float (number : Option Nat) (x : Double) : IsLimit (.float number x)

/-- An integer beyond all numbers that a time limit can be. -/
def Exceeds (v : Value) : Prop := ∃ n, v = .int n ∧ Double.ofInt? n = none

/-- The time limit that a value gives. -/
def limit (v : Value) : Except Fault Value :=
  match v with
  | .null => .ok .null
  | v => (seconds v).map .ofDouble

theorem limit_int (n : Int) : limit (.int n) = (seconds.ofInt n).map .ofDouble := rfl

theorem limit_exceeds {v : Value} (h : Exceeds v) : limit v = .error .tooLarge := by
  obtain ⟨n, rfl, large⟩ := h
  rw [limit_int, seconds.ofInt, large]
  rfl

theorem limit_isOk {v : Value} (h : IsLimit v) (bounded : ¬ Exceeds v) : ∃ timeout, limit v = .ok timeout := by
  cases h with
  | null => exact ⟨_, rfl⟩
  | bool b => cases b <;> exact ⟨_, rfl⟩
  | int n =>
    cases e : Double.ofInt? n with
    | none => exact absurd ⟨n, rfl, e⟩ bounded
    | some x => exact ⟨.ofDouble x, by rw [limit_int, seconds.ofInt, e]; rfl⟩
  | float number x => exact ⟨_, rfl⟩

/-- The data is a mapping with these entries, or it is empty. -/
def IsMapping (data : Value) (entries : List (Value × Value)) : Prop :=
  data.isTrue = false ∧ entries = [] ∨ data.isTrue = true ∧ ∃ l, data.opened = .dict l entries

theorem ofValue_mapping {data : Value} (h : IsMapping data entries) (path : String) :
    ofValue path data = (limit (field "timeout" entries)).map fun timeout => ⟨field "executable" entries, timeout⟩ := by
  unfold ofValue
  rcases h with ⟨empty, rfl⟩ | ⟨full, l, opened⟩
  · rw [empty]
    rfl
  · rw [full, if_pos rfl, opened]
    dsimp only [field]
    cases (Value.lookup "timeout" entries).getD .null <;> rfl

/-- The file has a mapping in it with these entries, and its time limit is a number. -/
structure Holds (files : Files) (path : String) (entries : List (Value × Value)) : Prop where
  contents : ∃ pieces beyond data next, files.readPieces path Yaml.Input.pieceSize = .ok (pieces, beyond) ∧
    Yaml.read 2 (.ofPieces pieces beyond) = .ok (data, next) ∧ IsMapping data entries
  timeout : IsLimit (field "timeout" entries)

theorem Holds.exists (h : Holds files path entries) : files.exists? path = true := by
  obtain ⟨pieces, beyond, -, -, read, -⟩ := h.contents
  unfold Files.exists?
  cases located : files.locate path with
  | error f => simp [Files.readPieces, Files.readBytes, located] at read
  | ok entry => rfl

theorem Holds.load (h : Holds files path entries) :
    Config.load files path =
      (limit (field "timeout" entries)).map fun timeout => ⟨field "executable" entries, timeout⟩ := by
  obtain ⟨pieces, beyond, data, next, read, parsed, mapping⟩ := h.contents
  unfold Config.load
  rw [read, Except.ok_bind]
  dsimp only
  rw [parsed]
  exact ofValue_mapping mapping path

/-! ## Offers -/

/-- What an environment names as its configuration file: nothing, a file that is missing, or one that can be read. -/
inductive Names (env : Environment) : Option (List (Value × Value)) → Prop
  | nothing : env.nonempty? fileVariable = none → Names env none
  | missing {path : String} :
    env.nonempty? fileVariable = some path → env.files.exists? path = false → Names env none
  | file {path : String} {entries : List (Value × Value)} :
    env.nonempty? fileVariable = some path → Holds env.files path entries → Names env (some entries)

/-- A path, or null where there is none. -/
def pathValue (path : Option String) : Value := (path.map .str).getD .null

/-- The executables that an environment offers, the one that counts first in front. Null stands where there is
none. -/
def offers (env : Environment) (file : Option (List (Value × Value))) : List Value :=
  [pathValue (env.settings.lookup executableVariable), (file.map (field "executable")).getD .null,
    pathValue (env.program? programName)]

/-- A configuration file is looked for and is missing. -/
def Misses (env : Environment) (path : String) : Prop :=
  env.nonempty? executableVariable = none ∧ env.nonempty? fileVariable = some path ∧ env.files.exists? path = false

/-- A configuration file is read whose time limit is too large. -/
def Overflows (env : Environment) (file : Option (List (Value × Value))) : Prop :=
  env.nonempty? executableVariable = none ∧ ∃ entries, file = some entries ∧ Exceeds (field "timeout" entries)

/-- A program can be run, and a configuration file is read that has no executable. -/
def Overlooks (env : Environment) (file : Option (List (Value × Value))) : Prop :=
  env.nonempty? executableVariable = none ∧ (env.program? programName).isSome ∧
    ∃ entries, file = some entries ∧ (field "executable" entries).isTrue = false

theorem pathValue_variable {name x : String} (h : env.nonempty? name = some x) :
    pathValue (env.settings.lookup name) = .str x ∧ (Value.str x).isTrue = true := by
  obtain ⟨found, nonempty⟩ := Option.filter_eq_some_iff.1 h
  rw [found]
  exact ⟨rfl, by simpa [Value.isTrue] using nonempty⟩

theorem isTrue_variable {name : String} (h : env.nonempty? name = none) :
    (pathValue (env.settings.lookup name)).isTrue = false := by
  unfold Environment.nonempty? at h
  cases found : env.settings.lookup name with
  | none => rfl
  | some x =>
    rw [found] at h
    simpa [pathValue, Value.isTrue] using h

theorem isTrue_program (env : Environment) :
    (pathValue (env.program? programName)).isTrue = (env.program? programName).isSome := by
  cases found : env.program? programName with
  | none => rfl
  | some path =>
    obtain ⟨directory, -, rfl⟩ := List.mem_map.1 (List.mem_of_find?_eq_some found)
    have named : programName ≠ "" := by decide
    unfold Environment.inDirectory
    split <;> simp [pathValue, Value.isTrue, named]

/-! ## Executables -/

/-- The configuration has this executable, or none, and then it complains about that. -/
def Has (c : Config) : Option Value → Prop
  | some v => c.executable = v ∧ c.requireExecutable = .ok v
  | none => c.executable.isTrue = false ∧ c.requireExecutable = .error (.configuration .executableUnset)

theorem has_none {v : Value} (unset : v.isTrue = false) (timeout : Value) : Has ⟨v, timeout⟩ none :=
  ⟨unset, if_neg (Bool.eq_false_iff.1 unset)⟩

/-- The offer that is taken is the executable, if it is not empty. -/
theorem has_taken (v timeout : Value) : Has ⟨v, timeout⟩ (if v.isTrue then some v else none) := by
  split
  · next set => exact ⟨rfl, if_pos set⟩
  · next unset => exact has_none (Bool.eq_false_iff.2 unset) timeout

theorem has_variable {x : String} (set : env.nonempty? executableVariable = some x)
    (file : Option (List (Value × Value))) : Has ⟨.str x, .null⟩ ((offers env file).find? Value.isTrue) := by
  obtain ⟨first, nonempty⟩ := pathValue_variable set
  rw [offers, first, List.find?_cons_of_pos nonempty]
  exact ⟨rfl, if_pos nonempty⟩

section Unset

variable (unset : env.nonempty? executableVariable = none)

include unset

theorem has_program :
    Has ⟨pathValue (env.program? programName), .null⟩ ((offers env none).find? Value.isTrue) := by
  have empty := isTrue_variable unset
  have null : Value.null.isTrue = false := rfl
  have taken : (offers env none).find? Value.isTrue =
      if (pathValue (env.program? programName)).isTrue then some (pathValue (env.program? programName)) else none := by
    cases program : (pathValue (env.program? programName)).isTrue <;> simp [offers, empty, program, null]
  rw [taken]
  exact has_taken _ _

theorem has_field (looked : ¬ Overlooks env (some entries)) (timeout : Value) :
    Has ⟨field "executable" entries, timeout⟩ ((offers env (some entries)).find? Value.isTrue) := by
  have empty := isTrue_variable unset
  have program := isTrue_program env
  have taken : (offers env (some entries)).find? Value.isTrue =
      if (field "executable" entries).isTrue then some (field "executable" entries) else none := by
    cases executable : (field "executable" entries).isTrue with
    | true => simp [offers, empty, executable]
    | false =>
      have gone : (env.program? programName).isSome = false :=
        Bool.eq_false_iff.2 fun found => looked ⟨unset, found, entries, rfl, executable⟩
      simp [offers, empty, executable, program, gone]
  rw [taken]
  exact has_taken _ _

end Unset

/-- A program that is not looked for has been offered. -/
theorem isSome_of_overlooks {file : Option (List (Value × Value))} (h : Overlooks env file) :
    ((offers env file).find? Value.isTrue).isSome := by
  obtain ⟨-, found, -⟩ := h
  simp [offers, isTrue_program, found]

/-! ## Resolution -/

section Steps

theorem resolve_variable {x : String} (set : env.nonempty? executableVariable = some x) :
    (resolve env).1 = .ok ⟨.str x, .null⟩ := by
  rw [resolve, set]

variable (unset : env.nonempty? executableVariable = none)

include unset

theorem resolve_program (unnamed : env.nonempty? fileVariable = none) :
    (resolve env).1 = .ok ⟨pathValue (env.program? programName), .null⟩ := by
  simp only [resolve, unset, unnamed]
  cases env.program? programName <;> rfl

theorem resolve_missing (named : env.nonempty? fileVariable = some path) (gone : env.files.exists? path = false) :
    (resolve env).1 = .error (.configuration (.fileMissing path)) := by
  simp [resolve, unset, named, gone]

theorem resolve_file (named : env.nonempty? fileVariable = some path) (there : env.files.exists? path = true) :
    (resolve env).1 = load env.files path := by
  simp [resolve, unset, named, there]

end Steps

/-- What a configuration comes to in an environment. It has the first executable that is offered, or else it
complains, but for one case: if a configuration file is read that has none, programs are not looked for. -/
structure Resolves (env : Environment) (file : Option (List (Value × Value))) (result : Except Fault Config) :
    Prop where
  missing : ∀ path, Misses env path → result = .error (.configuration (.fileMissing path))
  overflow : Overflows env file → result = .error .tooLarge
  found : (∀ path, ¬ Misses env path) → ¬ Overflows env file → ∃ c, result = .ok c ∧
    (¬ Overlooks env file → c.Has ((offers env file).find? Value.isTrue)) ∧
      (Overlooks env file → c.Has none ∧ ((offers env file).find? Value.isTrue).isSome)

/-- The file is read, since there is no other executable in front of it. -/
theorem resolves_file (unset : env.nonempty? executableVariable = none)
    (named : env.nonempty? fileVariable = some path) (holds : Holds env.files path entries) :
    Resolves env (some entries) (resolve env).1 := by
  rw [resolve_file unset named holds.exists, holds.load]
  refine ⟨fun path' misses => ?_, fun overflows => ?_, fun _ fits => ?_⟩
  · have same : path = path' := Option.some.inj (named.symm.trans misses.2.1)
    have gone := misses.2.2
    rw [← same, holds.exists] at gone
    cases gone
  · obtain ⟨-, _, e, exceeds⟩ := overflows
    cases e
    rw [limit_exceeds exceeds]
    rfl
  · have bounded : ¬ Exceeds (field "timeout" entries) := fun exceeds => fits ⟨unset, entries, rfl, exceeds⟩
    obtain ⟨timeout, ok⟩ := limit_isOk holds.timeout bounded
    rw [ok]
    refine ⟨_, rfl, fun looked => has_field unset looked timeout, fun overlooks => ?_⟩
    refine ⟨?_, isSome_of_overlooks overlooks⟩
    obtain ⟨-, -, _, e, executable⟩ := overlooks
    cases e
    exact has_none executable timeout

/-- Only programs can be found. -/
theorem resolves_nothing (unset : env.nonempty? executableVariable = none)
    (unnamed : env.nonempty? fileVariable = none) : Resolves env none (resolve env).1 := by
  rw [resolve_program unset unnamed]
  refine ⟨fun _ misses => ?_, fun overflows => ?_, fun _ _ => ⟨_, rfl, fun _ => has_program unset, fun overlooks => ?_⟩⟩
  · rw [misses.2.1] at unnamed
    cases unnamed
  · obtain ⟨-, _, e, -⟩ := overflows
    cases e
  · obtain ⟨-, -, _, e, -⟩ := overlooks
    cases e

theorem resolves_variable {file : Option (List (Value × Value))} {x : String}
    (set : env.nonempty? executableVariable = some x) : Resolves env file (resolve env).1 := by
  have looked : env.nonempty? executableVariable ≠ none := by simp [set]
  rw [resolve_variable set]
  exact ⟨fun _ misses => absurd misses.1 looked, fun overflows => absurd overflows.1 looked,
    fun _ _ => ⟨_, rfl, fun _ => has_variable set file, fun overlooks => absurd overlooks.1 looked⟩⟩

/-- Whatever the variables, the directories of programs and a configuration file with a mapping in it offer. -/
theorem resolve_executable {file : Option (List (Value × Value))} (names : Names env file) :
    Resolves env file (resolve env).1 := by
  cases set : env.nonempty? executableVariable with
  | some x => exact resolves_variable set
  | none =>
    cases names with
    | nothing unnamed => exact resolves_nothing set unnamed
    | file named holds => exact resolves_file set named holds
    | missing named gone =>
      rw [resolve_missing set named gone]
      refine ⟨fun _ misses => ?_, fun overflows => ?_, fun reached => absurd ⟨set, named, gone⟩ (reached _)⟩
      · rw [Option.some.inj (named.symm.trans misses.2.1)]
      · obtain ⟨-, _, e, -⟩ := overflows
        cases e

/-- A configuration file with nothing but the line `timeout: 30`, and a program. -/
def limitedFiles : Files :=
  [(["c.yaml"], .file [0x74, 0x69, 0x6D, 0x65, 0x6F, 0x75, 0x74, 0x3A, 0x20, 0x33, 0x30, 0x0A] false),
    (["bin", "minizinc"], .file [0x78] true)]

/-- The environment has these settings, and names the configuration file and the directory of the program. -/
def limited (settings : List (String × String)) : Environment :=
  ⟨settings ++ [("MZNBRIDGE_CONFIG", "c.yaml"), ("PATH", "bin")], limitedFiles⟩

theorem holds_limitedFiles : Holds limitedFiles "c.yaml" [(.str "timeout", .int 30)] := by
  have pieces : limitedFiles.readPieces "c.yaml" Yaml.Input.pieceSize = .ok (["timeout: 30\n".toList], none) := by
    decide +kernel
  have written : Yaml.write (.ofEntries [(.str "timeout", .int 30)]) = .ok "timeout: 30\n".toList := by
    decide +kernel
  have object : Value.IsObject [(.str "timeout", Value.int 30)] := ⟨by simp, by simp⟩
  have durable : Yaml.Durable (fun _ => .null) 0 false (.ofEntries [(.str "timeout", .int 30)]) := by
    refine .dict (by simp) object (fun s v h => ?_) (fun s v h => ?_)
    · obtain ⟨rfl, rfl⟩ : s = "timeout" ∧ v = .int 30 := by simpa using h
      rw [Yaml.KeyFits, if_pos (by decide +kernel)]
      decide +kernel
    · obtain ⟨rfl, rfl⟩ : s = "timeout" ∧ v = .int 30 := by simpa using h
      have fits : Integer.fits 30 = true := by decide +kernel
      obtain ⟨form, isForm⟩ : ∃ form, Yaml.scalarForm (.int 30) = some form := by simp [Yaml.scalarForm, fits]
      exact .scalar isForm (.inl (by decide))
  -- What is read is told by the text's being written, since making all that a document stands for takes too long here.
  obtain ⟨text, data, next, same, read, renewed⟩ := Yaml.read_write durable (by simp) 2
  cases written.symm.trans same
  cases renewed with
  | @dict _ number _ entries _ keys values =>
    cases Value.forall₂_entries keys values with
    | @cons _ entry _ _ first others =>
      cases others
      obtain ⟨key, value⟩ := entry
      obtain ⟨rfl, value⟩ := first
      cases value
      exact ⟨⟨_, _, _, _, pieces, read, .inr ⟨rfl, _, rfl⟩⟩, .int 30⟩

theorem resolve_executable_limited :
    Names (limited [("MINIZINC_PATH", "z")]) (some [(.str "timeout", .int 30)]) ∧
      ∃ c, (resolve (limited [("MINIZINC_PATH", "z")])).1 = .ok c ∧ c.requireExecutable = .ok (.str "z") := by
  have names : Names (limited [("MINIZINC_PATH", "z")]) (some [(.str "timeout", .int 30)]) :=
    .file rfl holds_limitedFiles
  have set : (limited [("MINIZINC_PATH", "z")]).nonempty? executableVariable ≠ none := by decide
  have resolves := resolve_executable names
  obtain ⟨c, result, found, -⟩ := resolves.found (fun _ misses => set misses.1) fun overflows => set overflows.1
  exact ⟨names, c, result, (found fun overlooks => set overlooks.1).2⟩

/-- A program is offered, but the configuration file that is named has no executable, so there is none. -/
theorem resolve_overlooked :
    Names (limited []) (some [(.str "timeout", .int 30)]) ∧
      (offers (limited []) (some [(.str "timeout", .int 30)])).find? Value.isTrue = some (.str "bin/minizinc") ∧
      ∃ c, (resolve (limited [])).1 = .ok c ∧ c.executable = .null ∧
        c.requireExecutable = .error (.configuration .executableUnset) := by
  have program : (limited []).program? programName = some "bin/minizinc" := by decide +kernel
  have bounded : ¬ Exceeds (.int 30) := by
    rintro ⟨n, e, large⟩
    cases e
    revert large
    decide +kernel
  obtain ⟨timeout, ok⟩ := limit_isOk holds_limitedFiles.timeout bounded
  have loaded : load limitedFiles "c.yaml" = .ok ⟨.null, timeout⟩ := by
    rw [holds_limitedFiles.load, ok]
    rfl
  refine ⟨.file rfl holds_limitedFiles, ?_, ⟨.null, timeout⟩, ?_, rfl, rfl⟩
  · rw [offers, program]
    rfl
  · rw [resolve_file rfl rfl holds_limitedFiles.exists]
    exact loaded

end ZincModel.Config
