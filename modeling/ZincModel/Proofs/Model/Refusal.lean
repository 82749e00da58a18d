import ZincModel.Proofs.Model.Admission
import ZincModel.Proofs.Value.Writable

/-!
# What becomes of data of any form

Data of any form is either refused as data of a model, or it is the document of a model that keeps all rules
(`ofValue_refused_or_restored`). Whatever goes wrong on the way, a missing entry, a value of the wrong kind or a rule
that is broken, is a refusal (`Fault.Refuses`); only an integer with too many digits can keep the message of a
refusal from being written, and then that is the fault (`ofValue_ends`).
-/

namespace ZincModel

open Except (Ends)

/-! ## Refusals -/

/-- The fault is about a model, or about the data for it. -/
def Fault.IsOfModel : Fault → Prop
  | .model _ => True
  | .duplicateName _ => True
  | _ => False

/-- The fault becomes one about the data for a model where a model is restored. -/
def Fault.Refuses (f : Fault) : Prop := (Model.malformed f).IsOfModel

theorem Fault.IsOfModel.refuses {f : Fault} (h : f.IsOfModel) : f.Refuses := by
  cases f with
  | model => trivial
  | duplicateName => trivial
  | _ => exact h.elim

/-- The fault is about a model, or, where `long` allows for integers with too many digits, says that one cannot be
written. -/
def Fault.Denies (long : Prop) (f : Fault) : Prop := f.IsOfModel ∨ f = .content .integerUnwritable ∧ long

/-- The fault refuses, or, where `long` allows for integers with too many digits, says that one cannot be written. -/
def Fault.Hinders (long : Prop) (f : Fault) : Prop := f.Refuses ∨ f = .content .integerUnwritable ∧ long

/-- The value has no integers with too many digits, or `long` allows for them. -/
def Value.ShortOr (long : Prop) (v : Value) : Prop := long ∨ v.isShort = true

section Ends

variable {α : Type} {long : Prop} {P : α → Prop}

theorem ends_refused {f : Fault} (h : f.Refuses) : Ends (Fault.Hinders long) P (.error f) := .error (.inl h)

theorem ends_denied {f : Fault} (h : f.IsOfModel) : Ends (Fault.Denies long) P (.error f) := .error (.inl h)

/-- Where a model is restored, what is denied is refused. -/
theorem hinders_of_denies {x : Except Fault α} (h : Ends (Fault.Denies long) P x) : Ends (Fault.Hinders long) P x :=
  h.mono (fun _ denies => denies.imp_left Fault.IsOfModel.refuses) fun _ result => result

theorem Value.ShortOr.displayed {v : Value} (short : v.ShortOr long) :
    Ends (Fault.Denies long) (fun _ => True) v.displayed :=
  v.displayed_ends.mono (fun _ h => .inr ⟨h.1, short.resolve_right (by simp [h.2])⟩) fun _ _ => trivial

theorem Value.ShortOr.textString {v : Value} (short : v.ShortOr long) :
    Ends (Fault.Denies long) (fun _ => True) v.textString :=
  v.textString_ends.mono (fun _ h => .inr ⟨h.1, short.resolve_right (by simp [h.2])⟩) fun _ _ => trivial

/-- A message that shows a value. -/
theorem Value.ShortOr.shown {v : Value} (short : v.ShortOr long) {f : String → Fault} (h : ∀ t, (f t).IsOfModel) :
    Ends (Fault.Denies long) P (v.displayed >>= fun t => .error (f t)) :=
  short.displayed.bind fun t _ => ends_denied (h t)

end Ends

/-! ## Short values hold short values -/

namespace Value

theorem tieAll_eq (n : Nat) (whole : Value) (items : List Value) : tieAll n whole items = items.map (tie n whole) := by
  induction items with
  | nil => rfl
  | cons v items ih => rw [tieAll, ih, List.map_cons]

theorem tieEntries_eq (n : Nat) (whole : Value) (entries : List (Value × Value)) :
    tieEntries n whole entries = entries.map fun e => (e.1, tie n whole e.2) := by
  induction entries with
  | nil => rfl
  | cons e entries ih => rw [tieEntries, ih, List.map_cons]

theorem tie_isShort (n : Nat) {whole : Value} (hw : whole.isShort = true) (v : Value) (h : v.isShort = true) :
    (tie n whole v).isShort = true := by
  induction v using Value.induction with
  | scalar v hv =>
    cases v with
    | loop m isDict =>
      rw [tie]
      split
      · exact hw
      · rfl
    | list => cases hv
    | tuple => cases hv
    | set => cases hv
    | dict => cases hv
    | _ => exact h
  | list l items ih =>
    rw [tie]
    split
    · rw [isShort, allShort_iff] at h ⊢
      rw [tieAll_eq, List.forall_mem_map]
      exact fun v hv => ih v hv (h v hv)
    · exact h
  | tuple l items ih =>
    rw [tie]
    split
    · rw [isShort, allShort_iff] at h ⊢
      rw [tieAll_eq, List.forall_mem_map]
      exact fun v hv => ih v hv (h v hv)
    · exact h
  | set l items ih => exact h
  | dict l entries ih =>
    rw [tie]
    split
    · rw [isShort, entriesShort_iff] at h ⊢
      rw [tieEntries_eq, List.forall_mem_map]
      exact fun e he => ⟨(h e he).1, (ih e he).2 (h e he).2⟩
    · exact h

theorem opened_isShort {v : Value} (h : v.isShort = true) : v.opened.isShort = true := by
  have tied := fun n => tie_isShort n h
  unfold opened
  split
  · split
    · rw [isShort, allShort_iff] at h ⊢
      rw [tieAll_eq, List.forall_mem_map]
      exact fun w hw => tied _ w (h w hw)
    · exact h
  · split
    · rw [isShort, allShort_iff] at h ⊢
      rw [tieAll_eq, List.forall_mem_map]
      exact fun w hw => tied _ w (h w hw)
    · exact h
  · split
    · rw [isShort, entriesShort_iff] at h ⊢
      rw [tieEntries_eq, List.forall_mem_map]
      exact fun e he => ⟨(h e he).1, tied _ e.2 (h e he).2⟩
    · exact h
  · exact h

theorem lookup_isShort {entries : List (Value × Value)} (h : entriesShort entries = true) {key : String} {v : Value}
    (found : lookup key entries = some v) : v.isShort = true := by
  rw [entriesShort_iff] at h
  fun_induction lookup key entries with
  | case1 => cases found
  | case2 => cases found; exact (h _ List.mem_cons_self).2
  | case3 _ _ _ _ ih => exact ih (fun e he => h e (List.mem_cons_of_mem _ he)) found
  | case4 _ _ _ ih => exact ih (fun e he => h e (List.mem_cons_of_mem _ he)) found

/-- What is under a key that need not be there, or stands for it. -/
theorem ShortOr.getD {long : Prop} {found : Option Value} (h : ∀ v, found = some v → v.ShortOr long) {d : Value}
    (short : d.isShort = true) : (found.getD d).ShortOr long := by
  cases found with
  | none => exact .inr short
  | some v => exact h v rfl

theorem byte_fits (b : UInt8) : Integer.fits b.toNat = true := by
  have wide : 256 ≤ tenTo Integer.digitLimit := by decide +kernel
  have small := b.toNat_lt
  simp only [Integer.fits, Int.natAbs_natCast, decide_eq_true_eq]
  omega

variable {long : Prop} {d : Value}

theorem entry_ends (short : d.ShortOr long) (key : String) :
    Ends (Fault.Hinders long) (ShortOr long) (d.entry key) := by
  have opened := short.imp_right opened_isShort
  unfold entry
  split
  · next e =>
    rw [e] at opened
    split
    · next found => exact .ok (opened.imp_right fun h => lookup_isShort h found)
    · exact ends_refused trivial
  all_goals exact ends_refused trivial

theorem entry?_ends (short : d.ShortOr long) (key : String) :
    Ends (Fault.Hinders long) (fun found => ∀ v, found = some v → v.ShortOr long) (d.entry? key) := by
  have opened := short.imp_right opened_isShort
  unfold entry?
  split
  · next e =>
    rw [e] at opened
    exact .ok fun v found => opened.imp_right fun h => lookup_isShort h found
  · exact ends_refused trivial

theorem members_ends (short : d.ShortOr long) :
    Ends (Fault.Hinders long) (fun items => ∀ v ∈ items, v.ShortOr long) d.members := by
  have opened := short.imp_right opened_isShort
  unfold members
  split
  case h_1 e => rw [e] at opened; exact .ok fun v hv => opened.imp_right fun h => allShort_iff.1 h v hv
  case h_2 e => rw [e] at opened; exact .ok fun v hv => opened.imp_right fun h => allShort_iff.1 h v hv
  case h_3 e => rw [e] at opened; exact .ok fun v hv => opened.imp_right fun h => allShort_iff.1 h v hv
  case h_4 e =>
    rw [e] at opened
    exact .ok (List.forall_mem_map.2 fun e he => opened.imp_right fun h => (entriesShort_iff.1 h e he).1)
  case h_5 => exact .ok (List.forall_mem_map.2 fun _ _ => .inr rfl)
  case h_6 => exact .ok (List.forall_mem_map.2 fun b _ => .inr (byte_fits b))
  case h_7 => exact ends_refused trivial

/-- The members of what stands under a key. -/
theorem membersOf_ends (short : d.ShortOr long) (key : String) :
    Ends (Fault.Hinders long) (fun items => ∀ v ∈ items, v.ShortOr long) (d.membersOf key) := by
  refine (entry?_ends short key).bind fun found hfound => ?_
  cases found with
  | none => exact .ok (by simp)
  | some v =>
    by_cases h : v.isTrue = true
    · simpa only [h, if_true] using members_ends (hfound v rfl)
    · simp only [h, Bool.false_eq_true, if_false]
      exact .ok (by simp)

end Value

/-! ## Variables -/

theorem choose_ends {α : Type} {long : Prop} (what : String) (all : List α) (spelling : α → String) {v : Value}
    (short : v.ShortOr long) : Ends (Fault.Denies long) (fun _ => True) (choose what all spelling v) := by
  unfold choose
  dsimp only
  split
  · exact .ok trivial
  · exact short.shown fun _ => trivial

/-- The variable is of the kind, keeps the rules and is not solved. -/
structure Variable.IsFresh (k : Kind) (v : Variable) : Prop where
  kind : v.kind = k
  sound : v.Sound
  unsolved : k = .decision → v.value = .null

/-- A decision variable that has just been declared has its bounds in order. -/
theorem Variable.IsFresh.exists_bounds {v : Variable} (h : v.IsFresh .decision) :
    ∃ lo hi, v.domain = .ofTuple [lo, hi] ∧ hi.less lo = .ok false := by
  have kind := h.kind
  have bounds := h.sound.bounds
  rcases v with ⟨name, type, domain | ⟨lo, hi⟩, value⟩
  · cases kind
  · exact ⟨lo, hi, rfl, bounds lo hi rfl⟩

namespace Declaration

/-- No integer in the declaration has more digits than may be written, unless `long` allows for it. -/
structure ShortOr (long : Prop) (d : Declaration) : Prop where
  type : d.type.ShortOr long
  value : d.value.ShortOr long
  domain : d.domain.ShortOr long
  name : d.name.ShortOr long

variable {long : Prop} {d : Declaration}

theorem bounds?_isShort {domain lo hi : Value} (short : domain.isShort = true)
    (h : bounds? domain = some (lo, hi)) : lo.isShort = true ∧ hi.isShort = true := by
  have opened := Value.opened_isShort short
  unfold bounds? at h
  split at h
  · next e =>
    cases h
    rw [e, Value.isShort, Value.allShort_iff] at opened
    exact ⟨opened _ (by simp), opened _ (by simp)⟩
  · next e =>
    cases h
    rw [e, Value.isShort, Value.allShort_iff] at opened
    exact ⟨opened _ (by simp), opened _ (by simp)⟩
  · cases h

theorem checkBounds_ends (name : String) {domain : Value} (short : domain.ShortOr long) :
    Ends (Fault.Denies long) (fun b => b.2.less b.1 = .ok false) (checkBounds name domain) := by
  unfold checkBounds
  split
  · exact short.shown fun _ => trivial
  · next lo hi e =>
    have shortLo : lo.ShortOr long := short.imp_right fun h => (bounds?_isShort h e).1
    have shortHi : hi.ShortOr long := short.imp_right fun h => (bounds?_isShort h e).2
    split
    · exact shortLo.displayed.bind fun _ _ => shortHi.shown fun _ => trivial
    · exact shortLo.textString.bind fun _ _ => shortHi.textString.bind fun _ _ => ends_denied trivial
    · next less => exact .ok less

theorem checkKind_ends (short : d.ShortOr long) (type : VariableType) (kind : Kind) {name : String}
    (hname : name ≠ "") : Ends (Fault.Denies long) (Variable.IsFresh kind) (d.checkKind type kind name) := by
  unfold checkKind
  cases kind with
  | parameter =>
    dsimp only
    split
    · exact ends_denied trivial
    · next value => exact .ok ⟨rfl, ⟨hname, fun _ => value, fun _ _ e => by cases e⟩, fun e => by cases e⟩
  | decision =>
    dsimp only
    split
    · refine (checkBounds_ends name short.domain).bind fun b ordered => ?_
      exact .ok ⟨rfl, ⟨hname, fun e => (by cases e), fun _ _ e => (by cases e; exact ordered)⟩, fun _ => rfl⟩
    · exact ends_denied trivial

theorem toVariable_ends (short : d.ShortOr long) {kind : Kind} (hkind : d.kind = .str kind.spelling) (n : Nat) :
    Ends (Fault.Denies long) (Variable.IsFresh kind) (d.toVariable n).1 := by
  have type := choose_ends "variable type" [.int, .float, .bool, .string] VariableType.spelling short.type
  rw [toVariable, hkind, Model.kind_ofValue]
  change Ends _ _ (VariableType.ofValue d.type) at type
  cases h : VariableType.ofValue d.type with
  | error f =>
    rw [h] at type
    exact .error type.fault
  | ok type =>
    simp only
    split
    · exact checkKind_ends short type kind (autoName_ne_empty n)
    · split
      · exact ends_denied trivial
      · next hname => exact checkKind_ends short type kind hname
    · exact short.name.shown fun _ => trivial

end Declaration

/-- What was declared before is as it was, and what is declared now comes behind it. -/
structure Store.Keeps (s s' : Store) : Prop where
  size : s.declared.size ≤ s'.declared.size
  get : ∀ r, r < s.declared.size → s'.get r = s.get r

/-- The reference is to a variable that is declared in the second store only, and is of the kind, keeps the rules
and is not solved. -/
structure Store.Declares (s s' : Store) (k : Kind) (r : Ref) : Prop where
  old : s.declared.size ≤ r
  new : r < s'.declared.size
  fresh : (s'.get r).IsFresh k

namespace Store

variable {long : Prop} {s s' s'' : Store} {k : Kind} {r : Ref}

theorem Keeps.refl (s : Store) : s.Keeps s := ⟨Nat.le_refl _, fun _ _ => rfl⟩

theorem Keeps.trans (h : s.Keeps s') (h' : s'.Keeps s'') : s.Keeps s'' where
  size := Nat.le_trans h.size h'.size
  get r hr := (h'.get r (Nat.lt_of_lt_of_le hr h.size)).trans (h.get r hr)

theorem keeps_declare (s : Store) (d : Declaration) : s.Keeps (s.declare d).2 := by
  rcases s.declared_declare d with e | ⟨v, n, -, e⟩
  · exact ⟨Nat.le_of_eq (congrArg Array.size e).symm, fun r _ => get_of_declared_eq e r⟩
  · refine ⟨by rw [e, Array.size_push]; omega, fun r hr => ?_⟩
    rw [get_of_declared_eq_push e, if_neg (Nat.ne_of_lt hr)]

theorem Declares.later (h : s.Declares s' k r) (keeps : s'.Keeps s'') : s.Declares s'' k r where
  old := h.old
  new := Nat.lt_of_lt_of_le h.new keeps.size
  fresh := by rw [keeps.get r h.new]; exact h.fresh

theorem Declares.earlier (keeps : s.Keeps s') (h : s'.Declares s'' k r) : s.Declares s'' k r where
  old := Nat.le_trans keeps.size h.old
  new := h.new
  fresh := h.fresh

theorem declare_ends {d : Declaration} (short : d.ShortOr long) (hkind : d.kind = .str k.spelling) (s : Store) :
    Ends (Fault.Denies long) (s.Declares (s.declare d).2 k) (s.declare d).1 := by
  have made := Declaration.toVariable_ends short hkind s.nextName
  unfold declare
  rcases e : d.toVariable s.nextName with ⟨_ | v, n⟩ <;> rw [e] at made
  · exact .error made.fault
  · exact .ok ⟨Nat.le_refl _, by simp, by rw [get_push]; exact made.result⟩

end Store

namespace Model

open Store

variable {long : Prop}

theorem declarationOf_ends {d : Value} (short : d.ShortOr long) (k : Kind) :
    Ends (Fault.Hinders long) (fun x => x.ShortOr long ∧ x.kind = .str k.spelling) (declarationOf k d) := by
  refine (Value.entry_ends short "type").bind fun type htype => ?_
  refine (Value.entry?_ends short "value").bind fun value hvalue => ?_
  refine (Value.entry?_ends short "domain").bind fun domain hdomain => ?_
  refine (Value.entry_ends short "name").bind fun name hname => ?_
  exact .ok ⟨⟨htype, .getD hvalue rfl, .getD hdomain rfl, hname⟩, rfl⟩

/-- Whatever data describes, declaring it leaves the variables alone that were there before, and yields new ones
unless it fails. -/
theorem declareAll_ends {ds : List Value} (short : ∀ d ∈ ds, d.ShortOr long) (k : Kind) (s : Store) :
    s.Keeps (declareAll k ds s).2 ∧
      Ends (Fault.Hinders long) (fun rs => ∀ r ∈ rs, s.Declares (declareAll k ds s).2 k r) (declareAll k ds s).1 := by
  induction ds generalizing s with
  | nil => exact ⟨.refl s, .ok (by simp)⟩
  | cons d ds ih =>
    obtain ⟨first, others⟩ := List.forall_mem_cons.1 short
    have described := declarationOf_ends first k
    cases hd : declarationOf k d with
    | error f =>
      rw [hd] at described
      simp only [declareAll, hd]
      exact ⟨.refl s, .error described.fault⟩
    | ok declaration =>
      rw [hd] at described
      have one := hinders_of_denies (declare_ends described.result.1 described.result.2 s)
      have keeps := s.keeps_declare declaration
      rcases hx : s.declare declaration with ⟨_ | r, s₁⟩ <;> rw [hx] at one keeps
      · simp only [declareAll, hd, hx]
        exact ⟨keeps, .error one.fault⟩
      · obtain ⟨keepsMore, more⟩ := ih others s₁
        rcases hs : declareAll k ds s₁ with ⟨_ | rs, s₂⟩ <;> rw [hs] at keepsMore more <;>
          simp only [declareAll, hd, hx, hs]
        · exact ⟨keeps.trans keepsMore, .error more.fault⟩
        · exact ⟨keeps.trans keepsMore, .ok (List.forall_mem_cons.2
            ⟨one.result.later keepsMore, fun r hr => (more.result r hr).earlier keeps⟩)⟩

/-! ## Constraints, the objective and the model -/

theorem resolve_ends {names : Named} {unknown : String → ModelFault} {v : Value} (short : v.ShortOr long) :
    Ends (Fault.Hinders long) (fun _ => True) (resolve names unknown v) := by
  unfold resolve
  split
  · exact ends_refused trivial
  · dsimp only
    split
    · exact .ok trivial
    · exact hinders_of_denies (short.shown fun _ => trivial)

theorem make_constraint_ends {operator : Value} (short : operator.ShortOr long) (operands : List Ref) :
    Ends (Fault.Hinders long) (fun _ => True) (Constraint.make operator (operands.map .proper)) := by
  unfold Constraint.make
  have known : Ends (Fault.Hinders long) (fun _ => True) (Operator.ofValue operator) :=
    hinders_of_denies (choose_ends _ _ _ short)
  refine known.bind fun o _ => ?_
  match operands with
  | [left, right] => exact .ok trivial
  | [] => exact ends_refused trivial
  | [_] => exact ends_refused trivial
  | _ :: _ :: _ :: _ => exact ends_refused trivial

theorem constraintOf_ends {names : Named} {d : Value} (short : d.ShortOr long) :
    Ends (Fault.Hinders long) (fun _ => True) (constraintOf names d) := by
  refine (Value.entry?_ends short "variables").bind fun found hfound => ?_
  refine (Value.members_ends (.getD hfound rfl)).bind fun items hitems => ?_
  refine (Ends.mapM fun v hv => resolve_ends (hitems v hv)).bind fun operands _ => ?_
  refine (Value.entry_ends short "operator").bind fun operator hoperator => ?_
  exact make_constraint_ends hoperator operands

theorem IsBreach.refuses {f : Fault} (h : IsBreach f) : f.Refuses := by
  cases h
  exact trivial

/-- A model that is made keeps the rules, and what is not made is refused. -/
theorem make_ends {s : Store} (decision parameter : List Ref) (constraints : List Constraint) {objective : Value}
    (short : objective.ShortOr long) (r? : Option Ref) :
    Ends (Fault.Hinders long) (fun m => m.decision = decision ∧ m.parameter = parameter ∧ m.Lawful s)
      (make s decision parameter constraints objective r?) := by
  have made : Ends (Fault.Hinders long) (fun _ => True) (make s decision parameter constraints objective r?) := by
    have known : Ends (Fault.Hinders long) (fun _ => True) (Objective.ofValue objective) :=
      hinders_of_denies (choose_ends _ _ _ short)
    cases e : Objective.ofValue objective with
    | error f =>
      rw [e] at known
      rw [make, ofGiven, e]
      exact .error known.fault
    | ok o =>
      refine (make_rejects s decision parameter constraints e r?).mono ?_ fun _ _ => trivial
      intro f rejected
      cases rejected with
      | role breach _ => exact .inl breach.refuses
      | name _ _ => exact .inl trivial
      | reference breach _ _ _ => exact .inl breach.refuses
  refine made.strengthen fun m hm => ?_
  obtain ⟨o, -, rfl, lawful⟩ := make_eq_ok_iff.1 hm
  exact ⟨rfl, rfl, lawful⟩

theorem ofParts_ends (s : Store) (parameter decision : List Ref) {d : Value} (short : d.ShortOr long) :
    Ends (Fault.Hinders long) (fun m => m.decision = decision ∧ m.parameter = parameter ∧ m.Lawful s)
      (ofParts s parameter decision d) := by
  refine (Value.membersOf_ends short "constraints").bind fun items hitems => ?_
  refine (Ends.mapM fun c hc => constraintOf_ends (hitems c hc)).bind fun constraints _ => ?_
  refine (Value.entry?_ends short "objective_variable").bind fun v? hv? => ?_
  have rest (r? : Option Ref) :
      Ends (Fault.Hinders long) (fun m => m.decision = decision ∧ m.parameter = parameter ∧ m.Lawful s) (do
        let objective ← d.entry? "objective"
        make s decision parameter constraints (objective.getD (.str "satisfy")) r?) := by
    refine (Value.entry?_ends short "objective").bind fun objective hobjective => ?_
    exact make_ends decision parameter constraints (.getD hobjective rfl) r?
  dsimp only
  split
  · exact rest none
  · exact rest none
  · refine Ends.bind (P := fun _ => True) ?_ fun r? _ => rest r?
    exact (resolve_ends (hv? _ rfl)).map fun _ _ => trivial

theorem declareUnder_ends {d : Value} (short : d.ShortOr long) (k : Kind) (key : String) (s : Store) :
    s.Keeps (declareUnder k key d s).2 ∧
      Ends (Fault.Hinders long) (fun rs => ∀ r ∈ rs, s.Declares (declareUnder k key d s).2 k r)
        (declareUnder k key d s).1 := by
  have items := Value.membersOf_ends short key
  cases h : d.membersOf key with
  | error f =>
    rw [h] at items
    simp only [declareUnder, h]
    exact ⟨.refl s, .error items.fault⟩
  | ok ds =>
    rw [h] at items
    simp only [declareUnder, h]
    exact declareAll_ends items.result k s

/-- The model has variables of its own, which were declared for it, and keeps all rules. -/
structure Restored (s s' : Store) (m : Model) : Prop where
  decision : ∀ r ∈ m.decision, s.Declares s' .decision r
  parameter : ∀ r ∈ m.parameter, s.Declares s' .parameter r
  lawful : m.Lawful s'

theorem ofDict_ends {d : Value} (short : d.ShortOr long) (s : Store) :
    s.Keeps (ofDict d s).2 ∧ Ends (Fault.Hinders long) (fun m => Restored s (ofDict d s).2 m) (ofDict d s).1 := by
  obtain ⟨keeps, parameters⟩ := declareUnder_ends short .parameter "parameter" s
  rcases hp : declareUnder .parameter "parameter" d s with ⟨_ | parameter, s₁⟩ <;> rw [hp] at keeps parameters
  · simp only [ofDict, hp]
    exact ⟨keeps, .error parameters.fault⟩
  · obtain ⟨keepsMore, decisions⟩ := declareUnder_ends short .decision "decision" s₁
    rcases hd : declareUnder .decision "decision" d s₁ with ⟨_ | decision, s₂⟩ <;> rw [hd] at keepsMore decisions <;>
      simp only [ofDict, hp, hd]
    · exact ⟨keeps.trans keepsMore, .error decisions.fault⟩
    · refine ⟨keeps.trans keepsMore, (ofParts_ends s₂ parameter decision short).mono (fun _ h => h) ?_⟩
      rintro m ⟨rfl, rfl, lawful⟩
      exact ⟨fun r hr => (decisions.result r hr).earlier keeps, fun r hr => (parameters.result r hr).later keepsMore,
        lawful⟩

/-- The steps succeed with a result that has property `P`, or refuse. -/
inductive Yields {α : Type} (P : α → Prop) : Except Fault α → Prop
  | ok {a : α} : P a → Yields P (.ok a)
  | refused {f : Fault} : f.Refuses → Yields P (.error f)

/-- Short data describes a model or is refused. -/
theorem ofDict_yields {d : Value} (short : d.isShort = true) (s : Store) :
    s.Keeps (ofDict d s).2 ∧ Yields (fun m => Restored s (ofDict d s).2 m) (ofDict d s).1 := by
  have data : d.ShortOr False := .inr short
  obtain ⟨keeps, ends⟩ := ofDict_ends data s
  refine ⟨keeps, ?_⟩
  cases h : (ofDict d s).1 with
  | error f =>
    rw [h] at ends
    exact .refused (ends.fault.resolve_right fun unwritten => unwritten.2)
  | ok m =>
    rw [h] at ends
    exact .ok ends.result

/-- Data of any form is refused, or hindered by a long integer in it, or it describes a model. -/
theorem ofValue_ends (d : Value) (s : Store) :
    s.Keeps (ofValue d s).2 ∧
      Ends (fun f => f.IsOfModel ∨ f = .content .integerUnwritable ∧ d.isShort = false)
        (fun m => Restored s (ofValue d s).2 m) (ofValue d s).1 := by
  cases d with
  | dict l es =>
    have short : (Value.dict l es).ShortOr ((Value.dict l es).isShort = false) :=
      (Bool.eq_false_or_eq_true _).symm
    obtain ⟨keeps, ends⟩ := ofDict_ends short s
    refine ⟨keeps, ends.mapError ?_⟩
    rintro f (refuses | ⟨rfl, long⟩)
    · exact .inl refuses
    · exact .inr ⟨rfl, long⟩
  | _ => exact ⟨.refl s, .error (.inl trivial)⟩

/-- Data of any form, as long as its integers can be shown, is refused as data for a model, or it describes a model.
The decision variables of that model are unsolved and have bounds that are not in the wrong order, its parameters
have values; names are not empty and differ; constraints relate two variables of the model, and the objective has
a variable of the model exactly if it needs one. All variables are new. -/
theorem ofValue_refused_or_restored {d : Value} (short : d.isShort = true) (s : Store) :
    (∃ f s', ofValue d s = (.error f, s') ∧ f.IsOfModel) ∨
      ∃ m s', ofValue d s = (.ok m, s') ∧
        (∀ r ∈ m.decision, (s'.get r).kind = .decision ∧ (s'.get r).value = .null ∧
          ∃ lo hi, (s'.get r).domain = .ofTuple [lo, hi] ∧ hi.less lo = .ok false) ∧
        (∀ r ∈ m.parameter, (s'.get r).kind = .parameter ∧ (s'.get r).value ≠ .null) ∧
        ((∀ r ∈ m.members, s'.name r ≠ "") ∧ (m.members.map s'.name).Nodup) ∧
        (∀ c ∈ m.constraints, ∃ left right, c.operands = [left, right] ∧ left ∈ m.members ∧ right ∈ m.members) ∧
        (m.objective = .satisfy ∧ m.objectiveVariable = none ∨
          m.objective ≠ .satisfy ∧ ∃ r ∈ m.members, m.objectiveVariable = some r) ∧
        ∀ r ∈ m.members, s.declared.size ≤ r ∧ r < s'.declared.size := by
  have dictionary (l : Option Label) (es : List (Value × Value)) (e : d = .dict l es) :
      ofValue d s = ((ofDict d s).1.mapError malformed, (ofDict d s).2) := by rw [e]; rfl
  cases d with
  | dict l es =>
    obtain ⟨-, yields⟩ := ofDict_yields short s
    rw [dictionary l es rfl]
    cases h : (ofDict (.dict l es) s).1 with
    | error f =>
      rw [h] at yields
      cases yields with
      | refused refuses => exact Or.inl ⟨_, _, rfl, refuses⟩
    | ok m =>
      rw [h] at yields
      cases yields with | ok restored =>
      have declares : ∀ r ∈ m.members, ∃ k, s.Declares (ofDict (.dict l es) s).2 k r := by
        intro r hr
        rcases List.mem_append.1 hr with hr | hr
        · exact ⟨_, restored.parameter r hr⟩
        · exact ⟨_, restored.decision r hr⟩
      refine Or.inr ⟨m, _, rfl, fun r hr => ?_, fun r hr => ?_, ⟨fun r hr => ?_, restored.lawful.names⟩, fun c hc => ?_,
        ?_, fun r hr => ?_⟩
      · have fresh := (restored.decision r hr).fresh
        exact ⟨fresh.kind, fresh.unsolved rfl, fresh.exists_bounds⟩
      · have fresh := (restored.parameter r hr).fresh
        exact ⟨fresh.kind, fresh.sound.value fresh.kind⟩
      · obtain ⟨k, declared⟩ := declares r hr
        exact declared.fresh.sound.name
      · have operand := restored.lawful.operands c hc
        exact ⟨c.left, c.right, rfl, operand _ (by simp [Constraint.operands]),
          operand _ (by simp [Constraint.operands])⟩
      · cases e : m.objectiveVariable with
        | none => exact Or.inl ⟨restored.lawful.objective.1 e, rfl⟩
        | some r =>
          refine Or.inr ⟨fun satisfy => ?_, r, restored.lawful.objectiveMember r e, rfl⟩
          rw [restored.lawful.objective.2 satisfy] at e
          cases e
      · obtain ⟨k, declared⟩ := declares r hr
        exact ⟨declared.old, declared.new⟩
  | _ => exact Or.inl ⟨_, _, rfl, trivial⟩

/-- A document with bounds that have no order. -/
def brokenDocument : Value :=
  .ofFields [("decision", .ofList [.ofFields
    [("name", .str "x"), ("type", .str "int"), ("domain", .ofList [.int 0, .bytes [7]])]])]

/-- Bounds without order are refused. -/
theorem ofValue_brokenDocument :
    brokenDocument.isShort = true ∧ ∃ f s', ofValue brokenDocument {} = (.error f, s') ∧ f.IsOfModel := by
  have short : brokenDocument.isShort = true := by decide +kernel
  have fails : (ofValue brokenDocument {}).1.toBool = false := by decide +kernel
  refine ⟨short, ?_⟩
  rcases ofValue_refused_or_restored short {} with refused | ⟨m, s', restored, -⟩
  · exact refused
  · rw [restored] at fails
    cases fails

end Model

end ZincModel
