import ZincModel.Proofs.Model.NormalForm
import ZincModel.Proofs.Value.AtLeast

/-!
# The bounds of decision variables

A declared decision variable has the bounds it is declared with, as a tuple, and the upper bound does not come before
the lower one. So the upper bound is at least the lower one, unless NaN or a set keeps the two apart; whatever has
bounds in that order is declared, and what is not declared is refused (`declare_decision`). NaN, which is neither
below nor above any number, is taken for a bound beside each of them (`declare_nan`).
-/

namespace ZincModel

open Except (Ends)

namespace Declaration

variable {d : Declaration}

/-- No integer in the declaration has more digits than may be written. -/
def isShort (d : Declaration) : Bool :=
  d.type.isShort && d.value.isShort && d.domain.isShort && d.name.isShort

theorem shortOr_isShort (d : Declaration) : d.ShortOr (d.isShort = false) := by
  cases short : d.isShort with
  | false => exact ⟨.inl rfl, .inl rfl, .inl rfl, .inl rfl⟩
  | true =>
    simp only [isShort, Bool.and_eq_true] at short
    obtain ⟨⟨⟨type, value⟩, domain⟩, name⟩ := short
    exact ⟨.inr type, .inr value, .inr domain, .inr name⟩

/-- There are a type, a name or none, and no value, as a decision variable has them; only its domain may be wrong. -/
structure IsUnsolved (d : Declaration) : Prop where
  type : ∃ type : VariableType, d.type = .str type.spelling
  kind : d.kind = .str "decision"
  value : d.value = .null
  name : d.name = .null ∨ ∃ name, name ≠ "" ∧ d.name = .str name

theorem checkBounds_eq_ok (name : String) {domain lo hi : Value} (h : bounds? domain = some (lo, hi))
    (ordered : hi.less lo = .ok false) : checkBounds name domain = .ok (lo, hi) := by
  unfold checkBounds
  simp only [h, ordered]
  rfl

/-- Bounds in order make a variable. -/
theorem toVariable_isOk (proper : d.IsUnsolved) {lo hi : Value} (h : bounds? d.domain = some (lo, hi))
    (ordered : hi.less lo = .ok false) (n : Nat) :
    ∃ v n', d.toVariable n = (.ok v, n') ∧ v.domain = .ofTuple [lo, hi] := by
  obtain ⟨type, htype⟩ := proper.type
  have made (name : String) :
      d.checkKind type .decision name = .ok ⟨name, type, .decision lo hi, .null⟩ := by
    simp only [checkKind, proper.value, checkBounds_eq_ok name h ordered]
    rfl
  have kind : Kind.ofValue d.kind = .ok .decision := by rw [proper.kind]; exact Model.kind_ofValue .decision
  rcases proper.name with none | ⟨name, filled, some⟩
  · refine ⟨⟨autoName n, type, .decision lo hi, .null⟩, n + 1, ?_, rfl⟩
    simp only [toVariable, htype, Model.variableType_ofValue, kind, none, made]
  · refine ⟨⟨name, type, .decision lo hi, .null⟩, n, ?_, rfl⟩
    simp only [toVariable, htype, Model.variableType_ofValue, kind, some, if_neg filled, made]

end Declaration

namespace Store

open Declaration

variable {d : Declaration} {lo hi : Value}

theorem declare_isOk (proper : d.IsUnsolved) (h : bounds? d.domain = some (lo, hi)) (ordered : hi.less lo = .ok false)
    (s : Store) : ∃ r s', s.declare d = (.ok r, s') ∧ (s'.get r).domain = .ofTuple [lo, hi] := by
  obtain ⟨v, n, made, domain⟩ := toVariable_isOk proper h ordered s.nextName
  refine ⟨s.declared.size, { s with declared := s.declared.push v, nextName := n }, by rw [declare, made], ?_⟩
  rw [get_push, domain]

/-- A decision variable that is declared has the bounds that it is declared with, as a tuple, and, if the two hold
neither NaN nor sets, the upper one is at least the lower one. What is not declared is refused, or has an integer that
the refusal cannot show. If nothing else is wrong, a domain is accepted whenever the upper bound is at least the lower
one. -/
theorem declare_decision (hkind : d.kind = .str "decision") (s : Store) :
    (∀ r s', s.declare d = (.ok r, s') → r < s'.declared.size ∧
      ∃ lo hi, bounds? d.domain = some (lo, hi) ∧ (s'.get r).domain = .ofTuple [lo, hi] ∧ hi.less lo = .ok false ∧
        (lo.isRanked = true → hi.isRanked = true → hi.atLeast? lo = some true)) ∧
    (∀ f s', s.declare d = (.error f, s') →
      f.IsOfModel ∨ f = .content .integerUnwritable ∧ d.isShort = false) ∧
    (d.IsUnsolved → ∀ lo hi, bounds? d.domain = some (lo, hi) → hi.atLeast? lo = some true →
      ∃ r s', s.declare d = (.ok r, s') ∧ (s'.get r).domain = .ofTuple [lo, hi]) := by
  have spelled : d.kind = .str Kind.decision.spelling := hkind
  have ends := declare_ends (shortOr_isShort d) spelled s
  refine ⟨fun r s' declared => ?_, fun f s' failed => ?_, fun proper lo hi h atLeast => ?_⟩
  · rw [declared] at ends
    have fresh := ends.result.fresh
    have makes := (Model.declare_eq_ok declared).2
    refine ⟨ends.result.new, ?_⟩
    cases role : (s'.get r).role with
    | parameter domain =>
      have kind := fresh.kind
      rw [Variable.kind, role] at kind
      cases kind
    | decision lo hi =>
      have domain : (s'.get r).domain = .ofTuple [lo, hi] := by rw [Variable.domain, role]
      have ordered : hi.less lo = .ok false := fresh.sound.bounds lo hi role
      exact ⟨lo, hi, makes.bounds lo hi role, domain, ordered, fun rankedLo rankedHi =>
        Value.atLeast?_of_less rankedHi rankedLo ordered⟩
  · rw [failed] at ends
    exact ends.fault
  · exact declare_isOk proper h (Value.less_of_atLeast? atLeast) s

/-- The declaration of a number between two others. -/
def between (lo hi : Value) : Declaration :=
  { type := .str "int", kind := .str "decision", domain := .ofList [lo, hi], name := .str "x" }

theorem isUnsolved_between (lo hi : Value) : (between lo hi).IsUnsolved where
  type := ⟨.int, rfl⟩
  kind := rfl
  value := rfl
  name := .inr ⟨"x", by decide, rfl⟩

/-- A range that is not empty is declared. -/
theorem declare_decision_range :
    (between (.int 0) (.int 9)).kind = .str "decision" ∧
      ∃ r s', ({} : Store).declare (between (.int 0) (.int 9)) = (.ok r, s') ∧
        (s'.get r).domain = .ofTuple [.int 0, .int 9] := by
  have ordered : (Value.int 9).atLeast? (.int 0) = some true := by decide +kernel
  obtain ⟨-, -, declares⟩ := declare_decision (d := between (.int 0) (.int 9)) rfl {}
  exact ⟨rfl, declares (isUnsolved_between (.int 0) (.int 9)) _ _ rfl ordered⟩

/-- NaN is taken for a bound beside each number, although neither of the two is at least the other one. -/
theorem declare_nan {v : Value} {x : Number} (number : v.asNumber? = some x) (n : Option Nat) (proper : d.IsUnsolved)
    (h : bounds? d.domain = some (lo, hi)) (nan : lo = .float n .nan ∧ hi = v ∨ lo = v ∧ hi = .float n .nan)
    (s : Store) :
    (∃ r s', s.declare d = (.ok r, s') ∧ (s'.get r).domain = .ofTuple [lo, hi]) ∧ hi.atLeast? lo = some false := by
  obtain ⟨rfl, rfl⟩ | ⟨rfl, rfl⟩ := nan
  · obtain ⟨notAtLeast, notBefore⟩ := Value.nan_right number n
    exact ⟨declare_isOk proper h notBefore s, notAtLeast⟩
  · obtain ⟨notAtLeast, notBefore⟩ := Value.nan_left number n
    exact ⟨declare_isOk proper h notBefore s, notAtLeast⟩

/-- A range from NaN to five is declared, although five is not at least NaN. -/
theorem declare_nanBound :
    (∃ r s', ({} : Store).declare (between (.ofDouble .nan) (.int 5)) = (.ok r, s') ∧
      (s'.get r).domain = .ofTuple [.ofDouble .nan, .int 5]) ∧ (Value.int 5).atLeast? (.ofDouble .nan) = some false :=
  declare_nan rfl none (isUnsolved_between (.ofDouble .nan) (.int 5)) rfl (.inl ⟨rfl, rfl⟩) {}

end Store

end ZincModel
