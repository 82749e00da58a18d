import ZincModel.Proofs.Failure
import ZincModel.Yaml.Making

/-!
# What keeps a document from having a value

The values of containers are made of what the document has, so that only a scalar can be without a value, or a mapping
that stands where a scalar is wanted (`Unmade`). Taking in what merge keys say changes a document on the way, but all
its nodes stem from nodes that were there before: keys `=` become texts, and mappings get other entries (`Derives`).
-/

namespace ZincModel.Yaml

open Except (Ends)

/-! ## Where nodes come from -/

/-- The tag is another one only if it is that of texts. -/
def Tag.Stems (t t' : Tag) : Prop := t' = t ∨ t' = .str

/-- The node comes from another one of its form by the changes that are made for merge keys. -/
inductive Node.Stems : Node → Node → Prop
  | scalar {t t' : Tag} (text : List Char) : t.Stems t' → Stems (.scalar t text) (.scalar t' text)
  | sequence {t t' : Tag} (items : List Nat) : t.Stems t' → Stems (.sequence t items) (.sequence t' items)
  | mapping {t t' : Tag} (entries entries' : List (Nat × Nat)) :
    t.Stems t' → Stems (.mapping t entries) (.mapping t' entries')

theorem Tag.Stems.trans {t t' t'' : Tag} (h : t.Stems t') (h' : t'.Stems t'') : t.Stems t'' := by
  rcases h' with rfl | rfl
  · exact h
  · exact .inr rfl

namespace Node

variable {node node' node'' : Node}

theorem Stems.refl (node : Node) : node.Stems node := by
  cases node
  · exact .scalar _ (.inl rfl)
  · exact .sequence _ (.inl rfl)
  · exact .mapping _ _ (.inl rfl)

theorem Stems.trans (h : node.Stems node') (h' : node'.Stems node'') : node.Stems node'' := by
  cases h with
  | scalar text t =>
    cases h' with
    | scalar _ t' => exact .scalar text (t.trans t')
  | sequence items t =>
    cases h' with
    | sequence _ t' => exact .sequence items (t.trans t')
  | mapping entries entries' t =>
    cases h' with
    | mapping _ entries'' t' => exact .mapping entries entries'' (t.trans t')

theorem stems_retag (node : Node) : node.Stems (node.retag .str) := by
  cases node
  · exact .scalar _ (.inr rfl)
  · exact .sequence _ (.inr rfl)
  · exact .mapping _ _ (.inr rfl)

end Node

namespace Graph

variable {g g' g'' : Graph} {n : Nat}

/-- Each node of the document comes from the one that was at its place. -/
def Derives (g g' : Graph) : Prop := ∀ n node', g'.get? n = some node' → ∃ node, g.get? n = some node ∧ node.Stems node'

theorem Derives.refl (g : Graph) : g.Derives g := fun _ node h => ⟨node, h, .refl node⟩

theorem Derives.trans (h : g.Derives g') (h' : g'.Derives g'') : g.Derives g'' := by
  intro n node'' here
  obtain ⟨node', there, stems'⟩ := h' n node'' here
  obtain ⟨node, origin, stems⟩ := h n node' there
  exact ⟨node, origin, stems.trans stems'⟩

theorem derives_put {node node' : Node} (here : g.get? n = some node) (stems : node.Stems node') :
    g.Derives (g.put n node') := by
  intro k found there
  by_cases same : n = k
  · subst same
    refine ⟨node, here, ?_⟩
    have inside : n < g.nodes.size := (Array.getElem?_eq_some_iff.1 here).1
    rw [get?, put, Array.getElem?_setIfInBounds_self_of_lt inside] at there
    cases there
    exact stems
  · rw [get?, put, Array.getElem?_setIfInBounds_ne same] at there
    exact ⟨found, there, .refl found⟩

theorem derives_retag (n : Nat) (g : Graph) : g.Derives (g.retag .str n) := by
  unfold retag
  split
  · next here => exact derives_put here (Node.stems_retag _)
  · exact .refl g

theorem derives_putEntries (n : Nat) (entries : List (Nat × Nat)) (g : Graph) : g.Derives (g.putEntries n entries) := by
  unfold putEntries
  split
  · next here => exact derives_put here (.mapping _ _ (.inl rfl))
  · exact .refl g

theorem derives_plainKeys (n : Nat) (g : Graph) : g.Derives (g.plainKeys n) := by
  unfold plainKeys
  refine List.foldlRecOn (motive := g.Derives) _ _ (.refl g) fun g' h e _ => ?_
  split
  · exact h.trans (derives_retag e.1 g')
  · exact h

/-- Taking in what merge keys say is stopped by nothing but a merge key with another value than mappings. -/
theorem takeIn_ends (fuel : Nat) (taken : List (Nat × Nat)) (n : Nat) (g : Graph) :
    Ends (· = .yaml) g.Derives (takeIn fuel taken n g) := by
  induction fuel generalizing taken n g with
  | zero => exact .error rfl
  | succ fuel ih =>
    unfold takeIn
    split
    · have keys := derives_plainKeys n g
      refine .ok ?_
      split
      · exact keys
      · exact keys.trans (derives_putEntries n _ _)
    · next source rest _ =>
      have before := derives_putEntries n rest g
      have onward {g' : Graph} (h : g.Derives g') (taken : List (Nat × Nat)) :
          Ends (· = .yaml) g.Derives (takeIn fuel taken n g') :=
        (ih taken n g').mono (fun _ => id) fun _ => h.trans
      dsimp only
      split
      · exact (ih [] source _).bind fun g' h => onward (before.trans h) _
      · next items _ =>
        have first : g.Derives (([] : List (List (Nat × Nat))), g.putEntries n rest).2 := before
        refine Ends.bind (Ends.foldlM (Q := fun r => g.Derives r.2) first ?_) fun r h => onward h _
        rintro ⟨lists, g'⟩ h item -
        dsimp only
        split
        · exact (ih [] item g').bind fun g'' h' => .ok (h.trans h')
        · exact .error rfl
      · exact .error rfl

theorem flatten_ends (merges n : Nat) (g : Graph) : Ends (· = .yaml) g.Derives (g.flatten merges n) :=
  takeIn_ends _ [] n g

/-- Where a scalar is wanted, the text is that of a scalar, which is the node or stands in a mapping. -/
theorem text?_cases {fuel : Nat} {text : List Char} (h : g.text? fuel n = some text) :
    (∃ t, g.get? n = some (.scalar t text)) ∨
      (∃ t entries, g.get? n = some (.mapping t entries)) ∧ ∃ k t, g.get? k = some (.scalar t text) := by
  induction fuel generalizing n with
  | zero => cases h
  | succ fuel ih =>
    unfold text? at h
    split at h
    · next t _ here =>
      cases h
      exact .inl ⟨t, here⟩
    · next t entries here =>
      obtain ⟨e, -, there⟩ := Option.bind_eq_some_iff.1 h
      refine .inr ⟨⟨t, entries, here⟩, ?_⟩
      rcases ih there with ⟨t', scalar⟩ | ⟨-, scalar⟩
      · exact ⟨e.2, t', scalar⟩
      · exact scalar
    · cases h

end Graph

/-! ## What has no value -/

/-- What keeps the document from having a value. -/
inductive Unmade (g : Graph) : Fault → Prop
  | yaml : Unmade g .yaml
  /-- A scalar has a text that stands for nothing by its tag. -/
  | scalar {n number : Nat} {tag : Tag} {text : List Char} {f : Fault} :
    g.get? n = some (.scalar tag text) → scalarOf number tag text = .error f → Unmade g f
  /-- A mapping has the tag of a scalar, and under `=` a text that stands for nothing by this tag. -/
  | mapping {n k number : Nat} {tag tag' : Tag} {entries : List (Nat × Nat)} {text : List Char} {f : Fault} :
    g.get? n = some (.mapping tag entries) → g.get? k = some (.scalar tag' text) →
    scalarOf number tag text = .error f → Unmade g f
  /-- A mapping has the tag of a timestamp. -/
  | timestamp {n : Nat} {entries : List (Nat × Nat)} :
    g.get? n = some (.mapping .timestamp entries) → Unmade g (.shape (.notSearchable "list"))

theorem scalarOf_stems {number : Nat} {t t' : Tag} {text : List Char} {f : Fault} (stems : t.Stems t')
    (h : scalarOf number t' text = .error f) : scalarOf number t text = .error f := by
  rcases stems with rfl | rfl
  · exact h
  · cases h

variable {g : Graph} {m : Making}

theorem scalarOf_ends {g' : Graph} (h : g.Derives g') (number n : Nat) :
    Ends (Unmade g) (fun _ => True) (g'.scalarOf number n) := by
  refine .of_forall (fun _ _ => trivial) fun f fault => ?_
  unfold Graph.scalarOf at fault
  split at fault
  · next here _ =>
    cases fault
    obtain ⟨node, origin, stems⟩ := h _ _ here
    cases stems with
    | mapping entries _ t =>
      rcases t with rfl | t
      · exact .timestamp origin
      · cases t
  · next node text _ here text? =>
    obtain ⟨origin, there, stems⟩ := h _ _ here
    rcases Graph.text?_cases text? with ⟨t, scalar⟩ | ⟨⟨t, entries, mapping⟩, k, t', scalar⟩
    · rw [here] at scalar
      cases scalar
      cases stems with
      | scalar _ tags => exact .scalar there (scalarOf_stems tags fault)
    · rw [here] at mapping
      cases mapping
      obtain ⟨origin', there', stems'⟩ := h _ _ scalar
      cases stems with
      | mapping _ _ tags =>
        cases stems' with
        | scalar => exact .mapping there there' (scalarOf_stems tags fault)
  · cases fault
    exact .yaml

/-! ## Making values -/

namespace Making

/-- The document on the way comes from the one at the start. -/
abbrev Stems (g : Graph) (m : Making) : Prop := g.Derives m.graph

theorem make_ends (h : m.Stems g) (n : Nat) : Ends (Unmade g) (Stems g) (m.make n) := by
  unfold make
  refine .ite (.ok h) ?_
  split
  · exact .ok h
  · exact (scalarOf_ends h _ n).bind fun _ _ => .ok h

theorem addEntry_ends {r : List (Value × Nat) × Making} (h : r.2.Stems g) (e : Nat × Nat) :
    Ends (Unmade g) (fun r => r.2.Stems g) (addEntry r e) := by
  unfold addEntry
  refine (make_ends h e.1).bind fun m h => ?_
  split
  · exact .error .yaml
  · exact (make_ends h e.2).bind fun m h => .ok h

theorem addPair_ends {r : List PairItem × Making} (h : r.2.Stems g) (n : Nat) :
    Ends (Unmade g) (fun r => r.2.Stems g) (addPair r n) := by
  unfold addPair
  dsimp only
  split
  · next k v _ => exact (make_ends h k).bind fun m h => (make_ends h v).bind fun m h => .ok h
  · exact .error .yaml

theorem fill_ends (h : m.Stems g) (n : Nat) : Ends (Unmade g) (Stems g) (m.fill n) := by
  unfold fill
  split
  · exact (Ends.foldlM h fun m h k _ => make_ends h k).bind fun m h => .ok h
  · refine .ite ?_ (.error .yaml)
    exact (Ends.foldlM (Q := fun r => r.2.Stems g) h fun r h k _ => addPair_ends h k).bind fun m h => .ok h
  · refine .ite ?_ (.error .yaml)
    refine ((m.graph.flatten_ends m.merges n).mono ?_ fun _ => h.trans).bind fun g' h => ?_
    · rintro f rfl
      exact .yaml
    · exact (Ends.foldlM (Q := fun r => r.2.Stems g) h fun r h e _ => addEntry_ends h e).bind fun m h => .ok h
  · exact .error .yaml

theorem fillAll_ends (rounds : Nat) (h : m.Stems g) : Ends (Unmade g) (Stems g) (m.fillAll rounds) := by
  induction rounds generalizing m with
  | zero => exact .ok h
  | succ rounds ih =>
    unfold fillAll
    have waited : Stems g { m with waiting := [] } := h
    exact .ite (.ok h) ((Ends.foldlM waited fun m h n _ => fill_ends h n).bind fun m h => ih h)

end Making

/-- What keeps a document from having a value is a scalar in it, or a mapping in the place of one. -/
theorem Document.made_ends (first : Nat) (d : Document) : Ends (Unmade d.graph) (fun _ => True) (d.made first) := by
  have start : (Making.start first d.graph).Stems d.graph := .refl _
  refine (Making.make_ends start d.root).bind fun m h => ?_
  exact (Making.fillAll_ends _ h).mono (fun _ => id) fun _ _ => trivial

end ZincModel.Yaml
