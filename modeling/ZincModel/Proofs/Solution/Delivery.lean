import ZincModel.Proofs.Json.Unsorted
import ZincModel.Proofs.Model.Rules
import ZincModel.Proofs.Solution.Assignment
import ZincModel.Proofs.Solution.Parsing
import ZincModel.Proofs.Text.Utf8

/-!
# Solutions arrive

What is written as one object of JSON in the output of a solver reaches the variables that it names
(`interpret_written`). On the way it is taken for bytes and back, its newlines are unified, its lines are taken apart,
and what stands behind it is cut off. Written JSON is printable ASCII, so it is a single line that none of this
touches, whatever texts it holds between its quotes.
-/

namespace ZincModel.Solution

open Text
open Json (IsPrintable)

/-! ## From the file to the entries -/

theorem not_boundary_of_printable {c : Char} (h : IsPrintable c) : isLineBoundary c = false := by
  by_contra boundary
  simp only [isLineBoundary, Bool.not_eq_false, Bool.or_eq_true, beq_iff_eq] at boundary
  rcases boundary with ((((((((rfl | rfl) | rfl) | rfl) | rfl) | rfl) | rfl) | rfl) | rfl) | rfl <;>
    exact absurd h (by decide)

/-- A text that is left in a file is read with its newlines unified. -/
theorem artifactText_encode (t : List Char) (isExecutable : Bool) :
    artifactText (some (.file (Utf8.encode t) isExecutable)) = unifyNewlines t := by
  rw [artifactText, Utf8.decodeLossy_encode]

/-- An object of JSON that is printable is the solution, in front of anything that stops it. -/
theorem parse_printable {w r : List Char} {l : Option Label} {entries : List (Value × Value)}
    (read : Json.read w = .ok (.dict l entries)) (printable : ∀ c ∈ w, IsPrintable c) (stops : Stops r) :
    parse (w ++ r) = .ok (some entries) := by
  have ordinary : ∀ c ∈ w, IsOrdinary c := by
    intro c hc boundary
    rw [not_boundary_of_printable (printable c hc)] at boundary
    cases boundary
  exact parse_object read ordinary stops

/-- The file holds the solution that was written to it. -/
theorem holds_written {w r : List Char} {l : Option Label} {entries : List (Value × Value)}
    (read : Json.read w = .ok (.dict l entries)) (printable : ∀ c ∈ w, IsPrintable c) (stops : Stops r)
    (isExecutable : Bool) : Holds (some (.file (Utf8.encode (w ++ r)) isExecutable)) entries := by
  unfold Holds
  rw [artifactText_encode, parse_unifyNewlines]
  exact parse_printable read printable stops

/-! ## From the entries to the variables -/

/-- Decision variables have the values that stand under their names, and all other variables are as they were. -/
structure Delivered (decision : List Ref) (entries : List (Value × Value)) (s s' : Store) : Prop where
  named : ∀ x ∈ decision, ∀ v, (.str (s.name x), v) ∈ entries →
    ∃ v', v'.same v = true ∧ s'.get x = { s.get x with value := v' }
  others : ∀ x, (x ∈ decision → ∀ v, (.str (s.name x), v) ∉ entries) → s'.get x = s.get x

theorem delivered_assign {s : Store} {decision : List Ref} {entries : List (Value × Value)}
    (object : Value.IsObject entries) (decisions : ∀ x ∈ decision, (s.get x).kind = .decision)
    (names : (decision.map s.name).Nodup) :
    Delivered decision entries s (assign s decision (Json.unsharedEntries entries)) := by
  have declared : ∀ x ∈ decision, x < s.declared.size := fun x hx => Store.lt_size_of_decision (decisions x hx)
  have after (x : Ref) : (assign s decision (Json.unsharedEntries entries)).get x =
      { s.get x with
        value := (entryFor s decision (Json.unsharedEntries entries) x).getD (s.get x).value } :=
    get_assign names declared (Json.isObject_unsharedEntries object) x
  constructor
  · intro x hx v hv
    have found : Value.lookup (s.name x) entries = some v := (Value.lookup_eq_some_iff object).2 hv
    refine ⟨Json.unshared v, Json.same_unshared v, ?_⟩
    rw [after, entryFor, if_pos hx, Json.lookup_unsharedEntries, found]
    rfl
  · intro x absent
    rw [after, entryFor]
    split
    · next hx =>
      have none : Value.lookup (s.name x) entries = none := by
        rw [Option.eq_none_iff_forall_ne_some]
        intro v hv
        exact absent hx v ((Value.lookup_eq_some_iff object).1 hv)
      rw [Json.lookup_unsharedEntries, none]
      rfl
    · rfl

/-- Entries that JSON has, written as one object with anything behind it that stops a solution, give the decision
variables with their names their values, and no other variable. -/
theorem interpret_written (s : Store) (decision : List Ref) (l : Option Label) (entries : List (Value × Value))
    (r : List Char) (plain : Json.Plain [] (.dict l entries)) (stops : Stops r)
    (decisions : ∀ x ∈ decision, (s.get x).kind = .decision) (names : (decision.map s.name).Nodup) :
    ∃ w, Json.write false (.dict l entries) = .ok w ∧ ∀ isExecutable,
      let result := interpret s decision (some (.file (Utf8.encode (w ++ r)) isExecutable))
      result.status = .ok .satisfied ∧ Delivered decision entries s result.store := by
  obtain ⟨w, written, printable, read⟩ := Json.read_write_unsorted plain
  refine ⟨w, written, fun isExecutable => ?_⟩
  have object : Value.IsObject entries := by
    cases plain with
    | dict _ object _ => exact object
  have holds : parse (artifactText (some (.file (Utf8.encode (w ++ r)) isExecutable))) =
      .ok (some (Json.unsharedEntries entries)) := holds_written read printable stops isExecutable
  constructor
  · rw [interpret_status, holds]
  · rw [interpret_store, holds]
    exact delivered_assign object decisions names

/-- Entries for a variable `y` and for none, with texts that look like other parts of an output. -/
def deceptiveEntries : List (Value × Value) :=
  [(.str "UNSAT", .null), (.str "y", .ofList [.str "UNSAT\n----------\r\n\"\u2028", .bool true])]

theorem interpret_deceptive :
    ∃ w, Json.write false (.ofEntries deceptiveEntries) = .ok w ∧ ∀ isExecutable,
      let result := interpret Model.smallDeclared [1, 2]
        (some (.file (Utf8.encode (w ++ '\n' :: ' ' :: List.replicate 10 '=')) isExecutable))
      result.status = .ok .satisfied ∧ Delivered [1, 2] deceptiveEntries Model.smallDeclared result.store := by
  have object : Value.IsObject deceptiveEntries := ⟨by simp [deceptiveEntries], by simp [deceptiveEntries]⟩
  have plain : Json.Plain [] (.ofEntries deceptiveEntries) := by
    refine .dict rfl object (List.forall_mem_cons.2 ⟨.null, List.forall_mem_singleton.2 (.list rfl ?_)⟩)
    exact List.forall_mem_cons.2 ⟨.str _, List.forall_mem_singleton.2 (.bool _)⟩
  have stops : Stops ('\n' :: ' ' :: List.replicate 10 '=') := Or.inr ⟨_, _, [], rfl, rfl, by decide⟩
  exact interpret_written Model.smallDeclared [1, 2] none deceptiveEntries _ plain stops (by decide +kernel)
    (by decide +kernel)

end ZincModel.Solution
