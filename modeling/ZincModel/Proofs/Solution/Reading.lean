import ZincModel.Proofs.Json.Fitting
import ZincModel.Proofs.Json.Objects
import ZincModel.Solution.Assignment

/-!
# What an output says

The output of a solver says one of three things: it holds a solution, it holds none and says so, or neither. What
the interpretation of an output comes to follows from that alone (`interpret_status`), and variables change only
where there is a solution (`interpret_store`).
-/

namespace ZincModel.Solution

/-- The output holds a solution with these entries. -/
def Holds (output : Option Entry) (entries : List (Value × Value)) : Prop :=
  parse (artifactText output) = .ok (some entries)

/-- The output holds no solution, and says in its first line that there is none. -/
def Denies (output : Option Entry) : Prop :=
  parse (artifactText output) = .ok none ∧ Text.occurs unsatMarker (firstLine output) = true

/-- No integer that is read in the solution of the output has more digits than may be read. -/
def Readable (output : Option Entry) : Prop :=
  ∀ digits, Json.read (firstPart (artifactText output)) ≠ .error (.tooLong digits)

/-- The entries of a solution have different texts for keys. -/
theorem Holds.isObject {output : Option Entry} {entries : List (Value × Value)} (h : Holds output entries) :
    Value.IsObject entries := by
  unfold Holds parse at h
  dsimp only at h
  split at h
  · cases h
  · split at h
    · next e => cases h; exact Json.read_isObject e
    all_goals cases h

/-- A readable output is read, with or without a solution in it. -/
theorem Readable.parse_isOk {output : Option Entry} (h : Readable output) :
    ∃ solution, parse (artifactText output) = .ok solution := by
  unfold parse
  dsimp only
  split
  · exact ⟨_, rfl⟩
  · split
    · exact ⟨_, rfl⟩
    · exact ⟨_, rfl⟩
    · exact ⟨_, rfl⟩
    · next e => exact absurd e (h _)

/-- Output cannot be read only because of an integer in it with too many digits. In the solution that is read none has
too many. -/
theorem parse_ends (text : List Char) :
    Except.Ends (fun f => ∃ n, f = .content (.integerUnreadable n) ∧ HasRun (firstPart text) n)
      (fun solution => ∀ entries, solution = some entries → Value.entriesShort entries = true) (parse text) := by
  have reads := Json.read_ends (firstPart text)
  unfold parse
  dsimp only
  split
  · exact .ok nofun
  · split
    · next l entries e =>
      rw [e] at reads
      refine .ok fun entries' same => ?_
      cases same
      exact reads.result
    · exact .ok nofun
    · exact .ok nofun
    · next n e =>
      rw [e] at reads
      exact .error ⟨n, rfl, reads.fault n rfl⟩

/-- What a solver leaves that has found a value for a variable `y`. -/
def smallOutput : Option Entry := some (.file [123, 34, 121, 34, 58, 51, 125] false)

theorem read_smallOutput :
    Json.read (firstPart (artifactText smallOutput)) = .ok (.dict none [(.str "y", .int 3)]) := by
  have text : firstPart (artifactText smallOutput) = ['{', '"', 'y', '"', ':', '3', '}'] := by decide +kernel
  rw [text]
  with_unfolding_all rfl

theorem holds_smallOutput : Holds smallOutput [(.str "y", .int 3)] := by
  have present : (firstPart (artifactText smallOutput)).isEmpty = false := by decide +kernel
  simp only [Holds, parse, present, Bool.false_eq_true, if_false, read_smallOutput]

theorem readable_smallOutput : Readable smallOutput := by
  simp [Readable, read_smallOutput]

/-! ## Interpretation -/

theorem keyTexts_isOk {keys : List Value} (text : ∀ key ∈ keys, ∃ k, key = .str k) (position : Nat) :
    ∃ texts, keyTexts position keys = .ok texts := by
  induction keys generalizing position with
  | nil => exact ⟨[], rfl⟩
  | cons key keys ih =>
    obtain ⟨⟨k, rfl⟩, others⟩ := List.forall_mem_cons.1 text
    obtain ⟨texts, e⟩ := ih others (position + 1)
    exact ⟨_, by rw [keyTexts, e]; rfl⟩

/-- The keys of a solution can be noted, whichever of them are left over. -/
theorem ignored_isOk {s : Store} {decision : List Ref} {entries : List (Value × Value)}
    (h : Value.IsObject entries) : ∃ records, ignored (unmatched s decision entries) = .ok records := by
  have text : ∀ key ∈ unmatched s decision entries, ∃ k, key = .str k := by
    intro key hkey
    obtain ⟨e, he, rfl⟩ := List.mem_map.1 (List.mem_filter.1 hkey).1
    exact h.text e he
  unfold ignored
  split
  · exact ⟨_, rfl⟩
  · obtain ⟨texts, e⟩ := keyTexts_isOk text 0
    exact ⟨_, Except.map_eq_ok.2 ⟨texts, e, rfl⟩⟩

/-- The status of an output, told from what is parsed. -/
theorem interpret_status (s : Store) (decision : List Ref) (output : Option Entry) :
    (interpret s decision output).status =
      match parse (artifactText output) with
      | .error f => .error f
      | .ok (some _) => .ok .satisfied
      | .ok none => .ok (if Text.occurs unsatMarker (firstLine output) then .unsatisfiable else .unknown) := by
  unfold interpret
  rcases e : parse (artifactText output) with f | _ | solution
  · rfl
  · dsimp only
    split <;> rfl
  · have object : Value.IsObject solution := Holds.isObject e
    obtain ⟨records, noted⟩ : ∃ records, ignored (unmatched s decision solution) = .ok records :=
      ignored_isOk object
    dsimp only
    rw [noted]

/-- The variables after an output has been interpreted. -/
theorem interpret_store (s : Store) (decision : List Ref) (output : Option Entry) :
    (interpret s decision output).store =
      match parse (artifactText output) with
      | .ok (some solution) => assign s decision solution
      | _ => s := by
  unfold interpret
  rcases parse (artifactText output) with f | _ | solution
  · rfl
  · dsimp only
    split <;> rfl
  · dsimp only
    split <;> rfl

end ZincModel.Solution
