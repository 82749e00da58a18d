import ZincModel.Json.Reader
import ZincModel.Proofs.Success
import ZincModel.Proofs.Value.Object

/-!
# Objects that are read

Wherever a JSON text holds an object, the entries that are read have different texts for keys (`read_isObject`).
-/

namespace ZincModel.Json

open Value

theorem numberFrom_ne_dict {negative : Bool} {whole s rest : List Char} {l : Option Label}
    {es : List (Value × Value)} : numberFrom negative whole s ≠ .ok (.dict l es, rest) := by
  intro h
  simp only [numberFrom] at h
  split at h
  · split at h <;> cases h
  · cases h

theorem readUnsigned?_ne_dict {negative : Bool} {s rest : List Char} {l : Option Label}
    {es : List (Value × Value)} : readUnsigned? negative s ≠ some (.ok (.dict l es, rest)) := by
  intro h
  unfold readUnsigned? at h
  split at h
  · exact numberFrom_ne_dict (Option.some.inj h)
  · split at h
    · cases h
    · exact numberFrom_ne_dict (Option.some.inj h)

theorem readScalar_ne_dict {s rest : List Char} {l : Option Label} {es : List (Value × Value)} :
    readScalar s ≠ .ok (.dict l es, rest) := by
  intro h
  unfold readScalar at h
  rcases Option.getD_eq_iff.1 h with h | ⟨-, h⟩
  · split at h
    case h_7 => exact readUnsigned?_ne_dict h
    case h_8 => exact readUnsigned?_ne_dict h
    all_goals cases h
  · cases h

/-- The keys of the entries that are read from an object are texts. -/
theorem readEntries_text {fuel : Nat} {s rest : List Char} {es : List (Value × Value)}
    (h : readEntries fuel s = .ok (es, rest)) : ∀ e ∈ es, ∃ k, e.1 = str k := by
  induction fuel generalizing s es with
  | zero => cases h
  | succ fuel ih =>
    simp only [readEntries] at h
    split at h
    · obtain ⟨⟨name, s₁⟩, -, h⟩ := Except.bind_eq_ok.1 h
      simp only at h
      split at h
      · obtain ⟨⟨value, s₂⟩, -, h⟩ := Except.bind_eq_ok.1 h
        simp only at h
        split at h
        · cases h; simp
        · obtain ⟨⟨more, s₃⟩, hmore, h⟩ := Except.bind_eq_ok.1 h
          cases h
          exact List.forall_mem_cons.2 ⟨⟨_, rfl⟩, ih hmore⟩
        · cases h
      · cases h
    · cases h

theorem readValue_isObject {fuel : Nat} {s rest : List Char} {l : Option Label} {es : List (Value × Value)}
    (h : readValue fuel s = .ok (.dict l es, rest)) : IsObject es := by
  cases fuel with
  | zero => cases h
  | succ fuel =>
    simp only [readValue] at h
    split at h
    · obtain ⟨_, -, h⟩ := Except.map_eq_ok.1 h
      cases h
    · split at h
      · cases h; exact .nil
      · obtain ⟨_, entries, h⟩ := Except.map_eq_ok.1 h
        cases h
        exact isObject_entriesOf (readEntries_text entries)
    · split at h
      · cases h
      · obtain ⟨_, -, h⟩ := Except.map_eq_ok.1 h
        cases h
    · exact absurd h readScalar_ne_dict

/-- The entries of an object that is read have different texts for keys. -/
theorem read_isObject {s : List Char} {l : Option Label} {es : List (Value × Value)}
    (h : read s = .ok (.dict l es)) : IsObject es := by
  have whole := Except.mapError_eq_ok.1 h
  unfold readWhole at whole
  split at whole
  · cases whole
  · obtain ⟨⟨v, rest⟩, hv, whole⟩ := Except.bind_eq_ok.1 whole
    simp only at whole
    split at whole
    · cases whole; exact readValue_isObject hv
    · cases whole

end ZincModel.Json
