import ZincModel.Proofs.Yaml.Durable
import ZincModel.Proofs.Yaml.Unfolding

/-!
# Durable values survive YAML

What is read from the text of a durable dictionary is the dictionary made anew (`read_write`): its outline is sound,
the text of the outline has the tokens of the outline, these are read as a document that shows the dictionary, and in
that document everything can be made.
-/

namespace ZincModel.Yaml

variable {shared : Nat → Value} {entries : List (Value × Value)}

/-- A document that shows a value has it, made anew. -/
theorem Document.Shows.read {s : Input} {d : Document} {v : Value} (shows : d.Shows v)
    (document : readDocument (tokensOf s) = .ok (some d)) (first : Nat) :
    ∃ v' next, Yaml.read first s = .ok (v', next) ∧ v.Renewed v' := by
  obtain ⟨S, root, closed⟩ := shows
  obtain ⟨m, made, fair, done, has⟩ := d.exists_made closed root first
  have nothing : Found.Renews S (Array.replicate d.graph.size none) := by
    intro j path v' there
    rw [Array.getElem?_replicate] at there
    split_ifs at there <;> cases there
  have finds : Renewing S d.root (valueOf m (d.graph.size + 1) [] d.root) :=
    Making.renewing_valueOf closed fair done has (by simp) List.nodup_nil (by simp) (Nat.lt_succ_self _)
  refine ⟨_, m.nextNumber, ?_, (finds _ nothing).1 v root⟩
  simp only [Yaml.read, document, made, Except.ok_bind, Except.pure_eq]

/-- A durable dictionary that is not empty is written, and read from its text as it was, made anew. -/
theorem read_write (durable : Durable shared 0 false (.ofEntries entries)) (nonempty : entries ≠ []) (first : Nat) :
    ∃ text v' next, write (.ofEntries entries) = .ok text ∧ Yaml.read first (.ofText text) = .ok (v', next) ∧
      (Value.ofEntries entries).Renewed v' := by
  obtain ⟨o, met, outline, isSound⟩ := durable.exists_outline []
  have sound := isSound o.anchors [] o.resolves_anchors
  have proper := o.anchors_proper
  have text : write (.ofEntries entries) = .ok o.write := by
    rw [write, Outline.ofValue, outline]
    rfl
  have whole : Outline.of (.ofEntries entries) [] =
      (entryOutlinesOf entries []).map fun r => (.mapping none .map r.1, r.2) := by
    rw [Outline.of]
    rfl
  rw [whole] at outline
  obtain ⟨⟨os, met'⟩, outlines, e⟩ := Except.map_eq_ok.1 outline
  obtain ⟨rfl, rfl⟩ : Outline.mapping none .map os = o ∧ met' = met := Prod.ext_iff.1 e
  have notEmpty : os ≠ [] := by
    rintro rfl
    exact nonempty (entryOutlinesOf_eq_nil outlines).1
  have tokens := tokensOf_write notEmpty rfl proper.named sound
  cases durable with
  | scalar form => cases form
  | dict _ object _ values =>
    have readable : ∀ e ∈ entries, IsReadable (Outline.mapping none .map os).anchors shared e.2 := by
      intro e he
      obtain ⟨s, isText⟩ := object.text e he
      exact (values s e.2 (isText ▸ he)).isReadable proper
    cases sound with
    | mapping _ soundValues =>
      obtain ⟨d, document, shows⟩ := readDocument_eq proper object readable outlines soundValues notEmpty
      rw [← tokens] at document
      obtain ⟨v', next, read, renewed⟩ := shows.read document first
      exact ⟨_, v', next, text, read, renewed⟩

end ZincModel.Yaml
