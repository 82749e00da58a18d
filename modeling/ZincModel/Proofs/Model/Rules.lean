import Mathlib.Data.List.Nodup
import ZincModel.Proofs.Model.History

/-!
# The rules of a model

`Model.make` checks the parts of a model one after the other. It succeeds exactly if all rules hold
(`make_eq_ok_iff`), and a model that was made keeps them at any later time (`Constructed.lawful`): what they are
about, the roles and names of variables, does not change.
-/

namespace ZincModel.Model

open Store

/-- The rules for a model. -/
structure Lawful (s : Store) (m : Model) : Prop where
  decision : ∀ r ∈ m.decision, (s.get r).kind = .decision
  parameter : ∀ r ∈ m.parameter, (s.get r).kind = .parameter
  names : (m.members.map s.name).Nodup
  operands : ∀ c ∈ m.constraints, ∀ r ∈ c.operands, r ∈ m.members
  objective : m.objectiveVariable = none ↔ m.objective = .satisfy
  objectiveMember : ∀ r, m.objectiveVariable = some r → r ∈ m.members

/-! ## The checks, one by one -/

theorem checked_proper {α : Type} {field : String} {check : α → Except Fault Unit} {a b : α} :
    ofGiven.checked field check (.proper a) = .ok b ↔ b = a ∧ check a = .ok () := by
  change (check a >>= fun _ => .ok a) = .ok b ↔ _
  rw [Except.bind_eq_ok]
  constructor
  · rintro ⟨_, hc, e⟩
    exact ⟨(Except.ok.inj e).symm, hc⟩
  · rintro ⟨e, hc⟩
    exact ⟨(), hc, e ▸ rfl⟩

theorem mapM_checked_proper {α : Type} {field : String} {check : α → Except Fault Unit} {as bs : List α} :
    (as.map Given.proper).mapM (ofGiven.checked field check) = .ok bs ↔
      bs = as ∧ ∀ a ∈ as, check a = .ok () := by
  induction as generalizing bs with
  | nil => simp [eq_comm]
  | cons a as ih =>
    rw [List.map_cons, List.mapM_cons, Except.bind_eq_ok, List.forall_mem_cons]
    constructor
    · rintro ⟨a', ha, h⟩
      obtain ⟨rest, hrest, e⟩ := Except.bind_eq_ok.1 h
      obtain ⟨rfl, hc⟩ := checked_proper.1 ha
      obtain ⟨rfl, all⟩ := ih.1 hrest
      cases e
      exact ⟨rfl, hc, all⟩
    · rintro ⟨rfl, hc, all⟩
      exact ⟨a, checked_proper.2 ⟨rfl, hc⟩, Except.bind_eq_ok.2 ⟨as, ih.2 ⟨rfl, all⟩, rfl⟩⟩

theorem checkDecision_eq_ok {s : Store} {r : Ref} : checkDecision s r = .ok () ↔ (s.get r).kind = .decision := by
  simp [checkDecision]

theorem checkParameter_eq_ok {s : Store} {r : Ref} :
    checkParameter s r = .ok () ↔ (s.get r).kind = .parameter := by
  simp [checkParameter]

theorem checkNames_eq_ok {before names : List String} :
    checkNames before names = .ok () ↔ names.Nodup ∧ ∀ n ∈ names, n ∉ before := by
  induction names generalizing before with
  | nil => simp [checkNames]
  | cons name rest ih =>
    by_cases h : name ∈ before
    · simp [checkNames, h]
    · simp only [checkNames, List.contains_eq_mem, h, decide_false, Bool.false_eq_true, if_false, ih,
        List.nodup_cons, List.mem_cons, forall_eq_or_imp, not_or]
      constructor
      · rintro ⟨nodup, apart⟩
        exact ⟨⟨fun hin => (apart name hin).1 rfl, nodup⟩, not_false, fun n hn => (apart n hn).2⟩
      · rintro ⟨⟨fresh, nodup⟩, -, apart⟩
        exact ⟨nodup, fun n hn => ⟨fun e => fresh (e ▸ hn), apart n hn⟩⟩

theorem checkOperands_eq_ok {s : Store} {members : List Ref} {c : Constraint} :
    checkOperands s members (.constraint c) = .ok () ↔ ∀ r ∈ c.operands, r ∈ members := by
  rw [checkOperands, List.forM_eq_forM, Except.forM_eq_ok]
  simp [Clause.operands]

theorem checkObjective_eq_ok {s : Store} {members : List Ref} {o : Objective} {r? q? : Option Ref} :
    checkObjective s members o (r?.map .proper) = .ok q? ↔
      q? = r? ∧ (r? = none ↔ o = .satisfy) ∧ ∀ r, r? = some r → r ∈ members := by
  cases o <;> cases r? <;> simp [checkObjective, Given.require, eq_comm]
  all_goals split <;> simp_all

theorem filterMap_constraint (cs : List Constraint) :
    (cs.map Clause.constraint).filterMap Clause.constraint? = cs := by
  induction cs with
  | nil => rfl
  | cons c cs ih => rw [List.map_cons, List.filterMap_cons, ih]; rfl

/-! ## Making a model -/

/-- A model is made exactly if it keeps the rules, and then of the parts that were handed over. -/
theorem make_eq_ok_iff {s : Store} {decision parameter : List Ref} {constraints : List Constraint}
    {objective : Value} {r? : Option Ref} {m : Model} :
    make s decision parameter constraints objective r? = .ok m ↔
      ∃ o, Objective.ofValue objective = .ok o ∧ m = ⟨decision, parameter, constraints, o, r?⟩ ∧ m.Lawful s := by
  have clauses : (constraints.map fun c => Given.proper (Clause.constraint c)) =
      (constraints.map Clause.constraint).map Given.proper := by
    rw [List.map_map]; rfl
  simp only [make, ofGiven, clauses, Except.bind_eq_ok, mapM_checked_proper, checkObjective_eq_ok]
  constructor
  · rintro ⟨o, ho, _, ⟨rfl, hd⟩, _, ⟨rfl, hp⟩, _, hn, _, ⟨rfl, hc⟩, _, ⟨rfl, hs, hr⟩, e⟩
    rw [filterMap_constraint] at e
    cases e
    refine ⟨o, ho, rfl, ⟨fun r h => checkDecision_eq_ok.1 (hd r h), fun r h => checkParameter_eq_ok.1 (hp r h),
      (checkNames_eq_ok.1 hn).1, fun c h => ?_, hs, hr⟩⟩
    exact checkOperands_eq_ok.1 (hc _ (List.mem_map_of_mem h))
  · rintro ⟨o, ho, rfl, h⟩
    refine ⟨o, ho, decision, ⟨rfl, fun r hr => checkDecision_eq_ok.2 (h.decision r hr)⟩, parameter,
      ⟨rfl, fun r hr => checkParameter_eq_ok.2 (h.parameter r hr)⟩, (), checkNames_eq_ok.2 ⟨h.names, by simp⟩, _,
      ⟨rfl, fun c hc => ?_⟩, r?, ⟨rfl, h.objective, h.objectiveMember⟩, ?_⟩
    · obtain ⟨c', hc', rfl⟩ := List.mem_map.1 hc
      exact checkOperands_eq_ok.2 (h.operands c' hc')
    · rw [filterMap_constraint]; rfl

/-! ## Models over time -/

/-- The model was made of declared variables, and the store may have changed since. -/
inductive Constructed : Store → Model → Prop
  | make {s : Store} {decision parameter : List Ref} {constraints : List Constraint} {objective : Value}
      {r? : Option Ref} {m : Model} (history : Leads {} s)
      (declared : ∀ r ∈ parameter ++ decision, r < s.declared.size)
      (made : Model.make s decision parameter constraints objective r? = .ok m) : Constructed s m
  | later {s s' : Store} {m : Model} (before : Constructed s m) (step : s.Step s') : Constructed s' m

namespace Constructed

variable {s : Store} {m : Model}

theorem history (h : Constructed s m) : Leads {} s := by
  induction h with
  | make history _ _ => exact history
  | later _ step ih => exact ih.tail step

theorem leads {s' : Store} (h : Constructed s m) (run : s.Leads s') : Constructed s' m := by
  induction run with
  | refl => exact h
  | tail _ step ih => exact ih.later step

theorem declared (h : Constructed s m) {r : Ref} (hr : r ∈ m.members) : r < s.declared.size := by
  induction h with
  | make _ declared made =>
    obtain ⟨o, -, rfl, -⟩ := make_eq_ok_iff.1 made
    exact declared r hr
  | later _ step ih => exact Nat.lt_of_lt_of_le (ih hr) step.size_le

/-- The variables of a constructed model keep the rules for variables. -/
theorem sound (h : Constructed s m) {r : Ref} (hr : r ∈ m.members) : (s.get r).Sound :=
  h.history.sound (h.declared hr)

/-- A model that was made keeps the rules. -/
theorem lawful (h : Constructed s m) : m.Lawful s := by
  induction h with
  | make _ _ made =>
    obtain ⟨o, -, -, lawful⟩ := make_eq_ok_iff.1 made
    exact lawful
  | later before step ih =>
    have same := fun r (hr : r ∈ _) => step.later (before.declared hr)
    refine ⟨fun r hr => ?_, fun r hr => ?_, ?_, ih.operands, ih.objective, ih.objectiveMember⟩
    · rw [(same r (List.mem_append_right _ hr)).kind]; exact ih.decision r hr
    · rw [(same r (List.mem_append_left _ hr)).kind]; exact ih.parameter r hr
    · have names := List.map_congr_left (f := Store.name _) fun r hr => (same r hr).name
      exact names ▸ ih.names

end Constructed

/-! ## A small model -/

/-- The variables of `small`: a limit, and two numbers. -/
def smallDeclared : Store :=
  let cap : Declaration := { type := .str "int", kind := .str "parameter", value := .int 7, name := .str "cap" }
  let x : Declaration :=
    { type := .str "int", kind := .str "decision", domain := .ofTuple [.int 0, .int 5], name := .str "x" }
  let y : Declaration :=
    { type := .str "int", kind := .str "decision", domain := .ofTuple [.int 1, .int 4], name := .str "y" }
  ((({} : Store).declare cap).2.declare x).2.declare y |>.2

/-- The same variables after a solver has found the second number. -/
def smallStore : Store := smallDeclared.setValue 2 (.int 4)

/-- Two ordered numbers below a limit, the second one as great as possible. -/
def small : Model where
  decision := [1, 2]
  parameter := [0]
  constraints := [⟨.less, 1, 2⟩, ⟨.lessOrEqual, 2, 0⟩]
  objective := .maximize
  objectiveVariable := some 2

theorem constructed_small : Constructed smallStore small := by
  have made : make smallDeclared small.decision small.parameter small.constraints (.str "maximize")
      small.objectiveVariable = .ok small := by decide +kernel
  apply Constructed.later (.make ?_ ?_ made) (.solve _ 2 (.int 4) ?_)
  · exact ((Relation.ReflTransGen.refl.tail (.declare _ _)).tail (.declare _ _)).tail (.declare _ _)
  · decide +kernel
  · decide +kernel

/-! ## A parameter alone -/

/-- A parameter with the value. -/
def settingStore (value : Value) : Store :=
  (({} : Store).declare { type := .str "int", kind := .str "parameter", value := value, name := .str "n" }).2

/-- The model of the parameter alone. -/
def setting : Model where
  decision := []
  parameter := [0]
  constraints := []
  objective := .satisfy
  objectiveVariable := none

theorem declared_settingStore {value : Value} (h : value ≠ .null) :
    (settingStore value).declared = #[⟨"n", .int, .parameter .null, value⟩] := by
  have type : VariableType.ofValue (.str "int") = .ok .int := by decide
  have kind : Kind.ofValue (.str "parameter") = .ok .parameter := by decide
  simp [settingStore, Store.declare, Declaration.toVariable, type, kind, Declaration.checkKind]

theorem get_settingStore {value : Value} (h : value ≠ .null) :
    (settingStore value).get 0 = ⟨"n", .int, .parameter .null, value⟩ := by
  simp [Store.get, declared_settingStore h]

theorem constructed_setting {value : Value} (h : value ≠ .null) : Constructed (settingStore value) setting := by
  have lawful : setting.Lawful (settingStore value) := by
    constructor <;> simp [setting, members, get_settingStore h, Variable.kind, Store.name]
  have made : make (settingStore value) setting.decision setting.parameter setting.constraints (.str "satisfy")
      setting.objectiveVariable = .ok setting := make_eq_ok_iff.2 ⟨.satisfy, rfl, rfl, lawful⟩
  exact .make (.single (.declare _ _)) (by simp [setting, declared_settingStore h]) made

end ZincModel.Model
