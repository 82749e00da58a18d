import ZincModel.Proofs.Value.Writable
import ZincModel.Proofs.Yaml.Anchors
import ZincModel.Proofs.Yaml.Documents
import ZincModel.Proofs.Yaml.Scalars

/-!
# Durable values

Values that can be written and read again (`Durable`): scalars, and lists and dictionaries of them, of which those with
one number are one. Their texts may be anything where lines go on in front of the column `Sheet.width`; further to the
right no space may stand behind a character that needs an escape. A durable value has a sound outline
(`Durable.exists_outline`), and its tokens are read as nodes that show it (`Durable.isReadable`).
-/

namespace ZincModel.Yaml

/-- The text stands in front of its colon if it is a key. -/
def isShortText (s : List Char) : Bool := isShortKey [] (.ofText .str s)

/-- A key can be read where its lines go on in the column `k`: in front of its colon it is not too long. -/
def KeyFits (k : Nat) (s : List Char) : Prop := if isShortText s then keyWidth s ≤ 1024 else IsNarrow k s

/-- The value can be written where its lines go on in the column `k`, and read from there; a `flush` list does not
stand further to the right. All that has the number of a shared value is that value. -/
inductive Durable (shared : Nat → Value) : (k : Nat) → (flush : Bool) → Value → Prop
  | scalar {k : Nat} {flush : Bool} {v : Value} {tag : Tag} {s : List Char} :
      scalarForm v = some (tag, s) → IsNarrow k s → Durable shared k flush v
  | list {k : Nat} {flush : Bool} {l : Option Label} {items : List Value} :
      (∀ label, l = some label → shared label.number = .list l items) →
      (∀ v ∈ items, Durable shared (if flush then k else k + 2) false v) → Durable shared k flush (.list l items)
  | dict {k : Nat} {flush : Bool} {l : Option Label} {entries : List (Value × Value)} :
      (∀ label, l = some label → shared label.number = .dict l entries) → Value.IsObject entries →
      (∀ s v, (.str s, v) ∈ entries → KeyFits (k + 2) s.toList) →
      (∀ s v, (.str s, v) ∈ entries → Durable shared (k + 2) (isShortText s.toList) v) →
      Durable shared k flush (.dict l entries)

variable {shared : Nat → Value} {v : Value}

/-! ## Outlines -/

theorem of_form {tag : Tag} {s : List Char} (h : scalarForm v = some (tag, s)) (met : Met) :
    Outline.of v met = .ok (.scalar none tag s, met) := by
  unfold scalarForm at h
  split at h
  case h_3 n =>
    split_ifs at h with fits
    cases h
    simp [Outline.of, Value.Integer.text_eq fits, Except.map, Outline.ofText]
  case h_6 => cases h
  all_goals
    cases h
    rfl

section Exists

variable {Q : Outline → Prop} {R : Outline × Outline → Prop}

theorem exists_outlines {items : List Value}
    (h : ∀ v ∈ items, ∀ met, ∃ o met', Outline.of v met = .ok (o, met') ∧ Q o) (met : Met) :
    ∃ os met', outlinesOf items met = .ok (os, met') ∧ ∀ o ∈ os, Q o := by
  induction items generalizing met with
  | nil => exact ⟨[], met, rfl, by simp⟩
  | cons v items ih =>
    obtain ⟨here, others⟩ := List.forall_mem_cons.1 h
    obtain ⟨o, met₁, outline, hq⟩ := here met
    obtain ⟨os, met₂, outlines, hqs⟩ := ih others met₁
    refine ⟨o :: os, met₂, ?_, List.forall_mem_cons.2 ⟨hq, hqs⟩⟩
    rw [outlinesOf, outline, Except.ok_bind]
    dsimp only
    rw [outlines]
    rfl

theorem exists_entryOutlines {entries : List (Value × Value)} (text : ∀ e ∈ entries, ∃ s, e.1 = .str s)
    (h : ∀ s v, (.str s, v) ∈ entries → ∀ met, ∃ o met', Outline.of v met = .ok (o, met') ∧
      R (.scalar none .str s.toList, o)) (met : Met) :
    ∃ os met', entryOutlinesOf entries met = .ok (os, met') ∧ ∀ e ∈ os, R e := by
  induction entries generalizing met with
  | nil => exact ⟨[], met, rfl, by simp⟩
  | cons e entries ih =>
    obtain ⟨key, v⟩ := e
    obtain ⟨⟨s, isText⟩, texts⟩ := List.forall_mem_cons.1 text
    cases isText
    obtain ⟨o, met₁, outline, hr⟩ := h s v List.mem_cons_self met
    obtain ⟨os, met₂, outlines, hrs⟩ := ih texts (fun s v he => h s v (List.mem_cons_of_mem _ he)) met₁
    refine ⟨(.scalar none .str s.toList, o) :: os, met₂, ?_, List.forall_mem_cons.2 ⟨hr, hrs⟩⟩
    have key : Outline.of (.str s) met = .ok (.scalar none .str s.toList, met) := of_form rfl met
    rw [entryOutlinesOf, key, Except.ok_bind]
    dsimp only
    rw [outline, Except.ok_bind]
    dsimp only
    rw [outlines]
    rfl

end Exists

/-- A value that has been met has an alias for its outline, and any other one has that of its content. -/
theorem exists_once {Q : Outline → Prop} {number : Option Nat} {whole : Met → Except Fault (Outline × Met)}
    (reference : ∀ n, number = some n → Q (.alias n))
    (content : ∀ met, ∃ o met', whole met = .ok (o, met') ∧ Q o) (met : Met) :
    ∃ o met', Outline.once number whole met = .ok (o, met') ∧ Q o := by
  cases number with
  | none => exact content met
  | some n =>
    by_cases known : met.contains n = true
    · exact ⟨.alias n, met, by rw [Outline.once, if_pos known], reference n rfl⟩
    · obtain ⟨o, met', outline, hq⟩ := content (n :: met)
      exact ⟨o, met', by rw [Outline.once, if_neg known, outline], hq⟩

/-- A durable value has an outline, which is sound as soon as its aliases have anchors. -/
theorem Durable.exists_outline {k : Nat} {flush : Bool} (h : Durable shared k flush v) (met : Met) :
    ∃ o met', Outline.of v met = .ok (o, met') ∧
      ∀ (anchors : Anchors) (ns : List Nat), anchors.Resolves (o.aliased ns) → Sound anchors k flush o := by
  have reference (k : Nat) (flush : Bool) (n : Nat) (anchors : Anchors) (ns : List Nat)
      (resolves : anchors.Resolves ((Outline.alias n).aliased ns)) : Sound anchors k flush (.alias n) := by
    refine .reference (resolves n ?_)
    rw [Outline.aliased]
    split <;> simp_all
  induction h generalizing met with
  | scalar form narrow =>
    exact ⟨_, _, of_form form met, fun anchors _ _ => .scalar (isTyped_form form) narrow⟩
  | @list k flush l items _ _ ih =>
    rw [Outline.of]
    refine exists_once (fun n _ => reference k flush n) (fun met => ?_) met
    obtain ⟨os, met', outlines, sound⟩ := exists_outlines ih met
    refine ⟨_, met', by rw [outlines]; rfl, fun anchors ns resolves => .sequence fun o ho => ?_⟩
    obtain ⟨ns', sub⟩ := aliased_subset_all ho ns
    exact sound o ho anchors ns' fun n hn => resolves n (sub hn)
  | @dict k flush l entries _ object keys _ ih =>
    rw [Outline.of]
    refine exists_once (fun n _ => reference k flush n) (fun met => ?_) met
    obtain ⟨os, met', outlines, sound⟩ := exists_entryOutlines (R := fun e => ∀ (anchors : Anchors) (ns : List Nat),
      anchors.Resolves (e.2.aliased ns) →
        IsKey anchors (k + 2) e.1 ∧ Sound anchors (k + 2) (isShortKey anchors e.1) e.2)
      object.text (fun s v he met => by
        obtain ⟨o, met', outline, sound⟩ := ih s v he met
        exact ⟨o, met', outline, fun anchors ns resolves => ⟨⟨_, rfl, keys s v he⟩, sound anchors ns resolves⟩⟩) met
    have all (anchors : Anchors) (ns : List Nat)
        (resolves : anchors.Resolves ((Outline.mapping (aliasNumber l false) .map os).aliased ns))
        (e : Outline × Outline) (he : e ∈ os) :
        IsKey anchors (k + 2) e.1 ∧ Sound anchors (k + 2) (isShortKey anchors e.1) e.2 := by
      obtain ⟨ns', sub⟩ := aliased_subset_entries he ns
      exact sound e he anchors ns' fun n hn => resolves n (sub hn)
    refine ⟨_, met', by rw [outlines]; rfl, fun anchors ns resolves => .mapping (fun e he => ?_) (fun e he => ?_)⟩
    · exact (all anchors ns resolves e he).1
    · exact (all anchors ns resolves e he).2

/-! ## Reading -/

/-- The tokens of a durable value are read as a node that shows it. -/
theorem Durable.isReadable {anchors : Anchors} (proper : anchors.Proper) {k : Nat} {flush : Bool}
    (h : Durable shared k flush v) : IsReadable anchors shared v := by
  induction h with
  | scalar form _ =>
    intro o met met' k flush outline _
    rw [of_form form] at outline
    cases outline
    exact readsNode_scalar form (isTyped_form form)
  | @list _ _ l items coherent _ ih =>
    intro o met met' k flush outline sound
    have coherent' : ∀ m, aliasNumber l false = some m → shared m = .list l items := by
      intro m e
      obtain ⟨label, rfl, rfl⟩ := Option.map_eq_some_iff.1 (show l.map Label.number = some m from e)
      exact coherent label rfl
    rw [Outline.of] at outline
    rcases once_eq_ok outline with ⟨m, number, known, rfl, rfl⟩ | ⟨fresh, whole⟩
    · cases sound with
      | reference named => exact coherent' m number ▸ readsNode_reference known named
    · obtain ⟨⟨os, met₁⟩, outlines, e⟩ := Except.map_eq_ok.1 whole
      cases e
      cases sound with
      | sequence sound => exact readsNode_sequence proper ih fresh coherent' outlines sound
  | @dict _ _ l entries coherent object _ _ ih =>
    intro o met met' k flush outline sound
    have coherent' : ∀ m, aliasNumber l false = some m → shared m = .dict l entries := by
      intro m e
      obtain ⟨label, rfl, rfl⟩ := Option.map_eq_some_iff.1 (show l.map Label.number = some m from e)
      exact coherent label rfl
    have readable : ∀ e ∈ entries, IsReadable anchors shared e.2 := by
      intro e he
      obtain ⟨s, isText⟩ := object.text e he
      exact ih s e.2 (isText ▸ he)
    rw [Outline.of] at outline
    rcases once_eq_ok outline with ⟨m, number, known, rfl, rfl⟩ | ⟨fresh, whole⟩
    · cases sound with
      | reference named => exact coherent' m number ▸ readsNode_reference known named
    · obtain ⟨⟨os, met₁⟩, outlines, e⟩ := Except.map_eq_ok.1 whole
      cases e
      cases sound with
      | mapping _ sound => exact readsNode_mapping proper object readable fresh coherent' outlines sound

end ZincModel.Yaml
