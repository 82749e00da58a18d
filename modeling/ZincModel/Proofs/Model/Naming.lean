import Mathlib.Data.List.Pairwise
import ZincModel.Proofs.Model.Admission
import ZincModel.Proofs.Value.Writable

/-!
# Names that are made up

A variable that is declared without a name gets one with a number. The number goes up with every name that is made up,
whether the declaration then succeeds or not, so no such name is made up twice; and none of them was given, unless
a name of this form was. Variables whose given names differ can therefore always stand in one model (`tried_names`).
-/

namespace ZincModel

open Except (Ends)

/-! ## Names -/

namespace Declaration

theorem autoName_injective {n k : Nat} (h : autoName n = autoName k) : n = k := by
  have digits : Nat.toDigits 10 n = Nat.toDigits 10 k := by
    have text : n.repr = k.repr := (String.append_right_inj "var").1 h
    rwa [Nat.repr_eq_ofList_toDigits, Nat.repr_eq_ofList_toDigits, String.ofList_inj] at text
  calc
    n = Nat.ofDigitChars 10 (Nat.toDigits 10 n) 0 := Nat.ofDigitChars_ten_toDigits.symm
    _ = Nat.ofDigitChars 10 (Nat.toDigits 10 k) 0 := by rw [digits]
    _ = k := Nat.ofDigitChars_ten_toDigits

/-- The name that is made up for a declaration, if it gets so far: its type and its kind are known, and it has no name
of its own. -/
def madeUp? (d : Declaration) (nextName : Nat) : Option String :=
  match VariableType.ofValue d.type, Kind.ofValue d.kind, d.name with
  | .ok _, .ok _, .null => some (autoName nextName)
  | _, _, _ => none

/-- The name that a declaration gives. -/
def given? (d : Declaration) : Option String :=
  match d.name with
  | .str name => some name
  | _ => none

theorem checkKind_name {d : Declaration} {type : VariableType} {kind : Kind} {name : String} {v : Variable}
    (h : d.checkKind type kind name = .ok v) : v.name = name := by
  unfold checkKind at h
  cases kind with
  | parameter =>
    cases value : d.value <;> simp only [value] at h <;> cases h <;> rfl
  | decision =>
    cases value : d.value with
    | null =>
      simp only [value] at h
      obtain ⟨bounds, -, made⟩ := Except.bind_eq_ok.1 h
      cases made
      rfl
    | _ => simp [value] at h

/-- Either a name is made up, and its number is used up, or none is. A variable that is declared has the name that was
made up for it, or the one that was given. -/
theorem toVariable_cases (d : Declaration) (nextName : Nat) :
    d.madeUp? nextName = some (autoName nextName) ∧ (d.toVariable nextName).2 = nextName + 1 ∧
        (∀ v, (d.toVariable nextName).1 = .ok v → v.name = autoName nextName) ∨
      d.madeUp? nextName = none ∧ (d.toVariable nextName).2 = nextName ∧
        ∀ v, (d.toVariable nextName).1 = .ok v → d.given? = some v.name := by
  unfold madeUp? toVariable given?
  cases VariableType.ofValue d.type with
  | error f => exact .inr ⟨rfl, rfl, nofun⟩
  | ok type =>
    cases Kind.ofValue d.kind with
    | error f => exact .inr ⟨rfl, rfl, nofun⟩
    | ok kind =>
      cases d.name with
      | null => exact .inl ⟨rfl, rfl, fun v made => checkKind_name made⟩
      | str name =>
        refine .inr ⟨rfl, ?_⟩
        dsimp only
        split
        · exact ⟨rfl, nofun⟩
        · exact ⟨rfl, fun v made => congrArg some (checkKind_name made).symm⟩
      | _ =>
        refine .inr ⟨rfl, rfl, fun v made => ?_⟩
        obtain ⟨shown, -, e⟩ := Except.bind_eq_ok.1 made
        cases e

end Declaration

/-! ## Declarations that are tried -/

/-- A declaration that was tried, the number in the next name then, and what came of it. -/
structure Attempt where
  declaration : Declaration
  nextName : Nat
  result : Except Fault Ref

namespace Attempt

/-- The name that was made up. -/
def madeUp? (a : Attempt) : Option String := a.declaration.madeUp? a.nextName

/-- The name that was given. -/
def given? (a : Attempt) : Option String := a.declaration.given?

/-- The attempt has declared one of the variables. -/
def isListed (members : List Ref) (a : Attempt) : Bool :=
  match a.result with
  | .ok r => members.contains r
  | .error _ => false

end Attempt

namespace Store

/-- The attempts to declare variables, the last one first, from which a store comes. In between decision variables are
given values, and numbers for shared values are used up. -/
inductive Tried : List Attempt → Store → Prop
  | start : Tried [] {}
  | declare {attempts : List Attempt} {s : Store} (d : Declaration) : Tried attempts s →
    Tried (⟨d, s.nextName, (s.declare d).1⟩ :: attempts) (s.declare d).2
  | solve {attempts : List Attempt} {s : Store} (r : Ref) (v : Value) : Tried attempts s →
    (s.get r).kind = .decision → Tried attempts (s.setValue r v)
  | number {attempts : List Attempt} {s : Store} (n : Nat) : Tried attempts s →
    Tried attempts { s with nextNumber := n }

/-- What holds after any attempts: the names that were made up have lower numbers than the next one, and differ, and a
variable has the name that was made up for it or given. -/
structure Names (attempts : List Attempt) (s : Store) : Prop where
  below : ∀ a ∈ attempts, ∀ name, a.madeUp? = some name → ∃ n < s.nextName, name = Declaration.autoName n
  apart : (attempts.filterMap Attempt.madeUp?).Nodup
  named : ∀ a ∈ attempts, ∀ r, a.result = .ok r →
    r < s.declared.size ∧ (a.madeUp? = some (s.name r) ∨ a.madeUp? = none ∧ a.given? = some (s.name r))

theorem nextName_declare (s : Store) (d : Declaration) :
    (s.declare d).2.nextName = (d.toVariable s.nextName).2 := by
  unfold declare
  rcases d.toVariable s.nextName with ⟨_ | v, n⟩ <;> rfl

theorem declare_eq_ok {s : Store} {d : Declaration} {r : Ref} (h : (s.declare d).1 = .ok r) :
    ∃ v, (d.toVariable s.nextName).1 = .ok v ∧ r < (s.declare d).2.declared.size ∧ (s.declare d).2.name r = v.name := by
  unfold declare at h ⊢
  rcases made : d.toVariable s.nextName with ⟨f | v, n⟩
  · rw [made] at h
    cases h
  · rw [made] at h
    cases h
    exact ⟨v, rfl, by simp, congrArg Variable.name (get_push s v n)⟩

/-- Variables keep their names in a step. -/
theorem Names.named_later {attempts : List Attempt} {s s' : Store} (h : Names attempts s) (step : s.Step s') :
    ∀ a ∈ attempts, ∀ r, a.result = .ok r →
      r < s'.declared.size ∧ (a.madeUp? = some (s'.name r) ∨ a.madeUp? = none ∧ a.given? = some (s'.name r)) := by
  intro a ha r declared
  obtain ⟨there, named⟩ := h.named a ha r declared
  have same : s'.name r = s.name r := (step.later there).name
  rw [same]
  exact ⟨Nat.lt_of_lt_of_le there step.size_le, named⟩

theorem Names.declare {attempts : List Attempt} {s : Store} (h : Names attempts s) (d : Declaration) :
    Names (⟨d, s.nextName, (s.declare d).1⟩ :: attempts) (s.declare d).2 := by
  have later := h.named_later (.declare s d)
  rcases d.toVariable_cases s.nextName with ⟨made, next, named⟩ | ⟨none, next, named⟩
  · have isNew : Declaration.autoName s.nextName ∉ attempts.filterMap Attempt.madeUp? := by
      intro old
      obtain ⟨a, ha, before⟩ := List.mem_filterMap.1 old
      obtain ⟨n, lower, same⟩ := h.below a ha _ before
      exact Nat.ne_of_gt lower (Declaration.autoName_injective same)
    refine ⟨List.forall_mem_cons.2 ⟨fun name e => ?_, fun a ha name e => ?_⟩, ?_,
      List.forall_mem_cons.2 ⟨fun r declared => ?_, later⟩⟩
    · cases made.symm.trans e
      exact ⟨s.nextName, by rw [nextName_declare, next]; omega, rfl⟩
    · obtain ⟨n, lower, same⟩ := h.below a ha name e
      exact ⟨n, by rw [nextName_declare, next]; omega, same⟩
    · have first : Attempt.madeUp? ⟨d, s.nextName, (s.declare d).1⟩ = some (Declaration.autoName s.nextName) := made
      rw [List.filterMap_cons_some first]
      exact List.nodup_cons.2 ⟨isNew, h.apart⟩
    · obtain ⟨v, isMade, there, same⟩ := declare_eq_ok declared
      exact ⟨there, .inl (made.trans (by rw [same, named v isMade]))⟩
  · refine ⟨List.forall_mem_cons.2 ⟨fun name e => ?_, fun a ha name e => ?_⟩, ?_,
      List.forall_mem_cons.2 ⟨fun r declared => ?_, later⟩⟩
    · cases none.symm.trans e
    · obtain ⟨n, lower, same⟩ := h.below a ha name e
      exact ⟨n, by rw [nextName_declare, next]; exact lower, same⟩
    · have first : Attempt.madeUp? ⟨d, s.nextName, (s.declare d).1⟩ = Option.none := none
      rw [List.filterMap_cons_none first]
      exact h.apart
    · obtain ⟨v, isMade, there, same⟩ := declare_eq_ok declared
      exact ⟨there, .inr ⟨none, (named v isMade).trans (by rw [same])⟩⟩

theorem Tried.names {attempts : List Attempt} {s : Store} (h : Tried attempts s) : Names attempts s := by
  induction h with
  | start => exact ⟨nofun, List.nodup_nil, nofun⟩
  | declare d _ ih => exact ih.declare d
  | @solve attempts s r v _ decision ih => exact ⟨ih.below, ih.apart, ih.named_later (.solve s r v decision)⟩
  | @number attempts s n _ ih => exact ⟨ih.below, ih.apart, ih.named_later (.number s n)⟩

end Store

/-! ## Models -/

/-- What is found in different members of a list differs, if it does in the list of all that is found. -/
theorem ne_of_nodup_filterMap {α β : Type} {f : α → Option β} {as : List α} (h : (as.filterMap f).Nodup) {a a' : α}
    (ha : a ∈ as) (ha' : a' ∈ as) (ne : a ≠ a') {b b' : β} (hb : f a = some b) (hb' : f a' = some b') : b ≠ b' := by
  have symm : Std.Symm fun a a' => ∀ b, f a = some b → ∀ b', f a' = some b' → b ≠ b' :=
    ⟨fun _ _ apart b hb b' hb' => (apart b' hb' b hb).symm⟩
  have apart := (List.pairwise_filterMap.1 h).forall ha ha' ne
  exact apart b hb b' hb'

namespace Model

theorem objective_ends_apart (v : Value) :
    Ends (fun f => ∀ name, f ≠ .duplicateName name) (fun _ => True) (Objective.ofValue v) := by
  unfold Objective.ofValue choose
  dsimp only
  split
  · exact .ok trivial
  · have shown : Ends (fun f => ∀ name, f ≠ .duplicateName name) (fun _ => True) v.displayed := by
      refine v.displayed_ends.mono (fun f h name => ?_) fun _ => id
      rw [h.1]
      nofun
    exact shown.bind fun _ _ => .error nofun

/-- Nothing but names that occur twice is complained about as such. -/
theorem make_of_names {s : Store} {decision parameter : List Ref} (names : HaveNames s decision parameter)
    (constraints : List Constraint) (objective : Value) (r? : Option Ref) (name : String) :
    make s decision parameter constraints objective r? ≠ .error (.duplicateName name) := by
  intro result
  have known := objective_ends_apart objective
  cases e : Objective.ofValue objective with
  | error f =>
    rw [e] at known
    rw [make, ofGiven, e] at result
    cases result
    exact known.fault name rfl
  | ok o =>
    have rejects := make_rejects s decision parameter constraints e r?
    rw [result] at rejects
    cases rejects.fault with
    | role breach => cases breach
    | name _ twice => exact twice names
    | reference breach => cases breach

end Model

/-- The names that were given for the variables. -/
def givenNames (attempts : List Attempt) (members : List Ref) : List String :=
  (attempts.filter (·.isListed members)).filterMap Attempt.given?

/-- Variables have different names, if those differ that were given for them, and none looks like one that is made
up. -/
theorem Store.Names.nodup {attempts : List Attempt} {s : Store} (h : Names attempts s) {members : List Ref}
    (distinct : members.Nodup) (tried : ∀ r ∈ members, ∃ a ∈ attempts, a.result = .ok r)
    (given : (givenNames attempts members).Nodup)
    (proper : ∀ name ∈ givenNames attempts members, ∀ n, name ≠ Declaration.autoName n) :
    (members.map s.name).Nodup := by
  have listed {a : Attempt} {r : Ref} (ha : a ∈ attempts) (hr : r ∈ members) (declared : a.result = .ok r) :
      a ∈ attempts.filter (·.isListed members) := by
    refine List.mem_filter.2 ⟨ha, ?_⟩
    simp [Attempt.isListed, declared, hr]
  -- a name that is made up is none that is given
  have apart {a b : Attempt} {r : Ref} {name : String} (ha : a ∈ attempts) (hb : b ∈ attempts) (hr : r ∈ members)
      (declared : b.result = .ok r) (made : a.madeUp? = some name) (isGiven : b.given? = some name) : False := by
    obtain ⟨n, -, same⟩ := h.below a ha name made
    exact proper name (List.mem_filterMap.2 ⟨b, listed hb hr declared, isGiven⟩) n same
  refine List.Nodup.map_on (fun r hr q hq same => ?_) distinct
  obtain ⟨a, ha, isA⟩ := tried r hr
  obtain ⟨b, hb, isB⟩ := tried q hq
  by_contra ne
  have different : a ≠ b := by
    rintro rfl
    exact ne (Except.ok.inj (isA.symm.trans isB))
  rcases (h.named a ha r isA).2 with madeA | ⟨-, givenA⟩ <;> rcases (h.named b hb q isB).2 with madeB | ⟨-, givenB⟩
  · exact ne_of_nodup_filterMap h.apart ha hb different madeA madeB same
  · exact apart ha hb hq isB madeA (same ▸ givenB)
  · exact apart hb ha hr isA madeB (same ▸ givenA)
  · exact ne_of_nodup_filterMap given (listed ha hr isA) (listed hb hq isB) different givenA givenB same

/-- Whatever declarations are tried, with and without names, and whichever of them fail: the names that are made up all
differ, each variable has the name that was made up for it or given, and no model of different variables has a name
twice, if the given names among theirs differ and none of them looks like one that is made up. -/
theorem tried_names {attempts : List Attempt} {s : Store} (tried : Store.Tried attempts s) :
    (attempts.filterMap Attempt.madeUp?).Nodup ∧
    (∀ a ∈ attempts, ∀ r, a.result = .ok r →
      a.madeUp? = some (s.name r) ∨ a.madeUp? = none ∧ a.given? = some (s.name r)) ∧
    ∀ decision parameter, (parameter ++ decision).Nodup →
      (∀ r ∈ parameter ++ decision, ∃ a ∈ attempts, a.result = .ok r) →
      (givenNames attempts (parameter ++ decision)).Nodup →
      (∀ name ∈ givenNames attempts (parameter ++ decision), ∀ n, name ≠ Declaration.autoName n) →
      ∀ constraints objective r? name,
        Model.make s decision parameter constraints objective r? ≠ .error (.duplicateName name) := by
  have names := tried.names
  refine ⟨names.apart, fun a ha r declared => (names.named a ha r declared).2, ?_⟩
  intro decision parameter distinct declared given proper constraints objective r? name
  exact Model.make_of_names (names.nodup distinct declared given proper) constraints objective r? name

/-- A parameter without a name, whose value may be missing. -/
def unnamedParameter (value : Value) : Declaration := ⟨.str "int", .str "parameter", value, .null, .null⟩

def namedDecision : Declaration := ⟨.str "int", .str "decision", .null, .ofTuple [.int 0, .int 5], .str "x"⟩

/-- The decision variable is declared last, and the parameter first without a value. -/
def mixedAttempts : List Attempt :=
  [⟨namedDecision, 3, .ok 1⟩, ⟨unnamedParameter (.int 3), 2, .ok 0⟩,
    ⟨unnamedParameter .null, 1, .error (.model (.parameterWithoutValue "var1"))⟩]

theorem tried_mixedAttempts : ∃ s, Store.Tried mixedAttempts s :=
  ⟨_, .declare namedDecision (.declare (unnamedParameter (.int 3)) (.declare (unnamedParameter .null) .start))⟩

theorem tried_names_mixed :
    ∃ s, Store.Tried mixedAttempts s ∧ mixedAttempts.filterMap Attempt.madeUp? = ["var2", "var1"] ∧
      ∀ name, Model.make s [1] [0] [] (.str "satisfy") none ≠ .error (.duplicateName name) := by
  obtain ⟨s, tried⟩ := tried_mixedAttempts
  have given : givenNames mixedAttempts ([0] ++ [1]) = ["x"] := rfl
  have proper (n : Nat) : "x" ≠ Declaration.autoName n := by
    intro h
    have first := congrArg (fun name => name.toList.head?) h
    simp [Declaration.autoName] at first
  obtain ⟨-, -, made⟩ := tried_names tried
  refine ⟨s, tried, rfl, fun name => made [1] [0] (by decide) ?_ ?_ ?_ [] _ none name⟩
  · intro r hr
    rcases List.mem_cons.1 hr with rfl | hr
    · exact ⟨_, List.mem_cons_of_mem _ List.mem_cons_self, rfl⟩
    · obtain rfl := List.mem_singleton.1 hr
      exact ⟨_, List.mem_cons_self, rfl⟩
  · rw [given]
    exact List.nodup_singleton _
  · rw [given]
    exact List.forall_mem_singleton.2 proper

end ZincModel
