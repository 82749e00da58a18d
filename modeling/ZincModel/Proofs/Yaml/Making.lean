import ZincModel.Proofs.Yaml.Documents
import ZincModel.Proofs.Yaml.Scalars
import ZincModel.Yaml.Making

/-!
# Making what a document shows

In a document that shows a value everything can be made. Its mappings have no merge keys, so they stay as they are
(`Graph.flatten_eq`). Whatever is made, every node that has been met either waits or stands for what it shows
(`Making.Fair`), and in each round some node is met for the first time or nothing waits any more, so there are enough
rounds (`Document.exists_made`).
-/

namespace ZincModel.Yaml

/-! ## Mappings without merge keys -/

namespace Graph

variable {g : Graph} {n : Nat}

theorem lt_size {node : Node} (h : g.get? n = some node) : n < g.size := by
  obtain ⟨inside, -⟩ := Array.getElem?_eq_some_iff.1 h
  exact inside

theorem hasTag_scalar {t tag : Tag} {s : List Char} (h : g.get? n = some (.scalar tag s)) :
    g.hasTag t n = (tag == t) := by
  simp [hasTag, h, Node.tag]

theorem splitMerge_eq_none {entries : List (Nat × Nat)} (h : ∀ e ∈ entries, g.hasTag .merge e.1 = false) :
    g.splitMerge entries = none := by
  induction entries with
  | nil => rfl
  | cons e entries ih =>
    obtain ⟨here, others⟩ := List.forall_mem_cons.1 h
    simp [splitMerge, here, ih others]

theorem plainKeys_eq (h : ∀ e ∈ g.entries n, g.hasTag .value e.1 = false) : g.plainKeys n = g := by
  unfold plainKeys
  generalize g.entries n = entries at h
  induction entries with
  | nil => rfl
  | cons e entries ih =>
    obtain ⟨here, others⟩ := List.forall_mem_cons.1 h
    rw [List.foldl_cons, if_neg (by simp [here])]
    exact ih others

/-- A mapping whose keys are texts has nothing to take in. -/
theorem flatten_eq (merges : Nat) (h : ∀ e ∈ g.entries n, ∃ s, g.get? e.1 = some (.scalar .str s)) :
    g.flatten merges n = .ok g := by
  have merge : ∀ e ∈ g.entries n, g.hasTag .merge e.1 = false := by
    intro e he
    obtain ⟨s, text⟩ := h e he
    rw [hasTag_scalar text]
    rfl
  have value : ∀ e ∈ g.entries n, g.hasTag .value e.1 = false := by
    intro e he
    obtain ⟨s, text⟩ := h e he
    rw [hasTag_scalar text]
    rfl
  simp [flatten, takeIn, splitMerge_eq_none merge, plainKeys_eq value]

end Graph

/-! ## Tables of what has been made -/

namespace Making

variable {m m' m'' : Making} {n j : Nat} {x : Made}

/-- The node at a place has been met. -/
def Has (m : Making) (n : Nat) : Prop := (m.made? n).isSome

theorem made?_put_self (h : n < m.made.size) : (m.put n x).made? n = some x := by
  simp [put, made?, h]

theorem made?_put_of_ne (h : j ≠ n) : (m.put n x).made? j = m.made? j := by
  simp [put, made?, h.symm]

theorem Has.lt_size (h : m.Has n) : n < m.made.size := by
  by_contra beyond
  simp [Has, made?, Nat.le_of_not_lt beyond] at h

theorem has_put_iff (h : n < m.made.size) : (m.put n x).Has j ↔ j = n ∨ m.Has j := by
  by_cases e : j = n
  · simp [Has, e, made?_put_self h]
  · simp [Has, made?_put_of_ne e, e]

/-- The number of nodes that have not been met. -/
def unmet (m : Making) : Nat := m.made.toList.countP Option.isNone

/-- The number of rounds that are left at most. -/
def load (m : Making) : Nat := m.unmet + m.waiting.length

theorem unmet_put (h : n < m.made.size) :
    (m.put n x).unmet = m.unmet - if (m.made? n).isNone then 1 else 0 := by
  have inside : n < m.made.toList.length := by simpa using h
  have here : m.made? n = m.made.toList[n] := by simp [made?, h]
  simp only [unmet, put, Array.toList_setIfInBounds, List.countP_set inside, here]
  simp

theorem unmet_put_new (h : n < m.made.size) (new : ¬m.Has n) : (m.put n x).unmet + 1 = m.unmet := by
  have none : (m.made? n).isNone = true := by simpa [Has] using new
  have inside : n < m.made.toList.length := by simpa using h
  have positive : 0 < m.unmet :=
    List.countP_pos_iff.2 ⟨m.made.toList[n], List.getElem_mem inside, by simpa [made?, h] using none⟩
  rw [unmet_put h, none, if_pos rfl]
  omega

/-- Nothing that has been made is lost, and no work is added. -/
structure Onward (m m' : Making) : Prop where
  has : ∀ {j}, m.Has j → m'.Has j
  load : m'.load ≤ m.load

theorem Onward.refl (m : Making) : m.Onward m := ⟨id, Nat.le_refl _⟩

theorem Onward.trans (h : m.Onward m') (h' : m'.Onward m'') : m.Onward m'' :=
  ⟨fun hj => h'.has (h.has hj), Nat.le_trans h'.load h.load⟩

end Making

/-! ## What nodes stand for -/

/-- The row has the key of an entry and the place of its value. -/
def IsRow (g : Graph) (row : Value × Nat) (part : Nat × Nat) : Prop :=
  (∃ s : String, row.1 = .str s ∧ g.get? part.1 = some (.scalar .str s.toList)) ∧ row.2 = part.2

/-- What a node stands for once all that it holds has been met, as `has` tells. -/
inductive Stands (g : Graph) (first : Nat) (has : Nat → Prop) (n : Nat) : Made → Prop
  | plain {tag : Tag} {s : List Char} {v : Value} :
      g.get? n = some (.scalar tag s) → scalarOf (first + n) tag s = .ok v → Stands g first has n (.plain v)
  | list {parts : List Nat} :
      g.get? n = some (.sequence .seq parts) → (∀ j ∈ parts, has j) → Stands g first has n (.list parts)
  | dict {parts : List (Nat × Nat)} {rows : List (Value × Nat)} :
      g.get? n = some (.mapping .map parts) → List.Forall₂ (IsRow g) rows parts → (∀ row ∈ rows, has row.2) →
      Stands g first has n (.dict rows)

theorem Stands.mono {g : Graph} {first : Nat} {has has' : Nat → Prop} {n : Nat} {x : Made} (h : Stands g first has n x)
    (sub : ∀ {j}, has j → has' j) : Stands g first has' n x := by
  cases h with
  | plain node read => exact .plain node read
  | list node met => exact .list node fun j hj => sub (met j hj)
  | dict node rows met => exact .dict node rows fun row hr => sub (met row hr)

namespace Making

/-- The nodes of the document `g` that have been met show something, as `S` tells. All but those that are to be looked
at in this round or later stand for what they show. -/
structure Fair (g : Graph) (S : Value → Nat → Prop) (first : Nat) (todo : List Nat) (m : Making) : Prop where
  graph : m.graph = g
  number : m.first = first
  size : m.made.size = g.size
  shown : ∀ {n}, m.Has n → ∃ v, S v n
  stands : ∀ {n x}, m.made? n = some x → n ∉ todo → n ∉ m.waiting → Stands g first m.Has n x
  waits : ∀ {n}, n ∈ todo ∨ n ∈ m.waiting → m.Has n ∧ ∀ tag s, g.get? n ≠ some (.scalar tag s)

variable {g : Graph} {S : Value → Nat → Prop} {first : Nat} {todo : List Nat} {m : Making} {v : Value} {n : Nat}
  {x : Made}

/-- A node is met that holds no others. -/
theorem Fair.meet_plain (h : m.Fair g S first todo) (new : ¬m.Has n) (shows : S v n) {tag : Tag} {s : List Char}
    (node : g.get? n = some (.scalar tag s)) {v' : Value} (read : scalarOf (first + n) tag s = .ok v') :
    (m.put n (.plain v')).Fair g S first todo ∧ m.Onward (m.put n (.plain v')) ∧ (m.put n (.plain v')).Has n := by
  have inside : n < m.made.size := h.size ▸ Graph.lt_size node
  have has {j : Nat} := has_put_iff (j := j) (x := .plain v') inside
  refine ⟨⟨h.graph, h.number, by simpa [put] using h.size, fun hj => ?_, fun {j y} made fresh free => ?_, fun hj => ?_⟩,
    ⟨fun hj => has.2 (.inr hj), ?_⟩, has.2 (.inl rfl)⟩
  · rcases has.1 hj with rfl | hj
    · exact ⟨v, shows⟩
    · exact h.shown hj
  · by_cases e : j = n
    · subst e
      obtain rfl : Made.plain v' = y := by simpa [made?_put_self inside] using made
      exact .plain node read
    · rw [made?_put_of_ne e] at made
      exact (h.stands made fresh free).mono fun hj => has.2 (.inr hj)
  · exact ⟨has.2 (.inr (h.waits hj).1), (h.waits hj).2⟩
  · have fewer := unmet_put_new (x := .plain v') inside new
    have waiting : (m.put n (.plain v')).waiting = m.waiting := rfl
    simp only [load, waiting]
    omega

/-- A container is met, which waits then. -/
theorem Fair.meet_container (h : m.Fair g S first todo) (new : ¬m.Has n) (shows : S v n) {node : Node}
    (there : g.get? n = some node) (container : ∀ tag s, node ≠ .scalar tag s) (x : Made) :
    let m' := { m.put n x with waiting := n :: m.waiting }
    m'.Fair g S first todo ∧ m.Onward m' ∧ m'.Has n := by
  have inside : n < m.made.size := h.size ▸ Graph.lt_size there
  have has {j : Nat} : Has { m.put n x with waiting := n :: m.waiting } j ↔ j = n ∨ m.Has j := has_put_iff inside
  refine ⟨⟨h.graph, h.number, by simpa [put] using h.size, fun hj => ?_, fun {j y} made fresh free => ?_,
    fun {j} hj => ?_⟩, ⟨fun hj => has.2 (.inr hj), ?_⟩, has.2 (.inl rfl)⟩
  · rcases has.1 hj with rfl | hj
    · exact ⟨v, shows⟩
    · exact h.shown hj
  · have before : m.made? j = some y := (made?_put_of_ne (List.ne_of_not_mem_cons free)).symm.trans made
    exact (h.stands before fresh (List.not_mem_of_not_mem_cons free)).mono fun hj => has.2 (.inr hj)
  · by_cases e : j = n
    · subst e
      refine ⟨has.2 (.inl rfl), fun tag s e => ?_⟩
      exact container tag s (Option.some.inj (there.symm.trans e))
    · have waits := h.waits (hj.imp_right fun hj => List.mem_of_ne_of_mem e hj)
      exact ⟨has.2 (.inr waits.1), waits.2⟩
  · have fewer := unmet_put_new (x := x) inside new
    have unmet : Making.unmet { m.put n x with waiting := n :: m.waiting } = (m.put n x).unmet := rfl
    simp only [load, unmet, List.length_cons]
    omega

/-- A container has been looked at. -/
theorem Fair.complete (h : m.Fair g S first (n :: todo)) (stands : Stands g first m.Has n x) :
    (m.put n x).Fair g S first todo ∧ m.Onward (m.put n x) := by
  have here : m.Has n := (h.waits (.inl List.mem_cons_self)).1
  have inside : n < m.made.size := here.lt_size
  have has {j : Nat} : (m.put n x).Has j ↔ m.Has j :=
    (has_put_iff inside).trans (or_iff_right_of_imp fun e => e ▸ here)
  refine ⟨⟨h.graph, h.number, by simpa [put] using h.size, fun hj => h.shown (has.1 hj),
    fun {j y} made fresh free => ?_, fun hj => ?_⟩, ⟨has.2, ?_⟩⟩
  · by_cases e : j = n
    · subst e
      obtain rfl : x = y := by simpa [made?_put_self inside] using made
      exact stands.mono has.2
    · rw [made?_put_of_ne e] at made
      exact (h.stands made (List.not_mem_cons_of_ne_of_not_mem e fresh) free).mono has.2
  · have waits := h.waits (hj.imp_left fun hj => List.mem_cons_of_mem n hj)
    exact ⟨has.2 waits.1, waits.2⟩
  · have same := unmet_put (x := x) inside
    have waiting : (m.put n x).waiting = m.waiting := rfl
    simp only [load, waiting, same]
    omega

/-! ## Meeting nodes -/

theorem exists_of_mem_right {α β : Type} {R : α → β → Prop} {as : List α} {bs : List β} (h : List.Forall₂ R as bs)
    {b : β} (hb : b ∈ bs) : ∃ a ∈ as, R a b := by
  induction h with
  | nil => cases hb
  | @cons a b' as bs here _ ih =>
    rcases List.mem_cons.1 hb with rfl | hb
    · exact ⟨a, List.mem_cons_self, here⟩
    · obtain ⟨a', ha, there⟩ := ih hb
      exact ⟨a', List.mem_cons_of_mem _ ha, there⟩

theorem exists_shown {items : List Value} {parts : List Nat} (h : List.Forall₂ S items parts) {j : Nat}
    (hj : j ∈ parts) : ∃ v, S v j := by
  obtain ⟨v, -, shows⟩ := exists_of_mem_right h hj
  exact ⟨v, shows⟩

/-- The keys of a dictionary with the places of its values. -/
theorem exists_rows {entries : List (Value × Value)} {parts : List (Nat × Nat)}
    (text : ∀ e ∈ entries, ∃ s, e.1 = .str s)
    (keys : List.Forall₂ S (entries.map Prod.fst) (parts.map Prod.fst))
    (values : List.Forall₂ S (entries.map Prod.snd) (parts.map Prod.snd)) :
    ∃ rows : List (Value × Nat), rows.map Prod.fst = entries.map Prod.fst ∧
      List.Forall₂ (fun row part => (∃ s, row.1 = .str s ∧ S (.str s) part.1) ∧ row.2 = part.2 ∧ ∃ v, S v part.2)
        rows parts := by
  induction entries generalizing parts with
  | nil =>
    obtain rfl : parts = [] := by simpa using keys
    exact ⟨[], rfl, .nil⟩
  | cons e entries ih =>
    obtain ⟨part, parts, rfl⟩ := List.exists_cons_of_ne_nil (l := parts) (by rintro rfl; cases keys)
    obtain ⟨⟨s, isText⟩, texts⟩ := List.forall_mem_cons.1 text
    cases keys with
    | cons key keys =>
      cases values with
      | cons value values =>
        obtain ⟨rows, same, shown⟩ := ih texts keys values
        exact ⟨(e.1, part.2) :: rows, by simp [same], .cons ⟨⟨s, isText, isText ▸ key⟩, rfl, e.2, value⟩ shown⟩

/-- A scalar is no container. -/
theorem emptyOf_form {tag : Tag} {s : List Char} (h : scalarForm v = some (tag, s)) : emptyOf tag = none := by
  cases v with
  | int n =>
    simp only [scalarForm] at h
    split_ifs at h
    cases h
    rfl
  | null | bool | float | str =>
    cases h
    rfl
  | _ => cases h

section Rounds

variable (closed : ∀ v n, S v n → Content g S v n)

include closed

theorem Fair.make (h : m.Fair g S first todo) (shows : S v n) :
    ∃ m', m.make n = .ok m' ∧ m'.Fair g S first todo ∧ m.Onward m' ∧ m'.Has n := by
  by_cases known : m.Has n
  · exact ⟨m, if_pos known, h, .refl m, known⟩
  have new : (m.made? n).isSome = false := by simpa [Has] using known
  cases closed v n shows with
  | @scalar _ _ tag s form node =>
    obtain ⟨v', read, -⟩ := scalarOf_form form (first + n)
    have read' : g.scalarOf (m.first + n) n = .ok v' := by
      rw [h.number]
      simp [Graph.scalarOf, node, Graph.text?, Node.tag, read]
    refine ⟨_, ?_, h.meet_plain known shows node read⟩
    simp [Making.make, new, h.graph, node, Node.tag, emptyOf_form form, read']
  | list node items =>
    refine ⟨_, ?_, h.meet_container known shows node (by simp) (.list [])⟩
    simp [Making.make, new, h.graph, node, Node.tag, emptyOf]
  | dict object node keys values =>
    refine ⟨_, ?_, h.meet_container known shows node (by simp) (.dict [])⟩
    simp [Making.make, new, h.graph, node, Node.tag, emptyOf]

theorem Fair.makeAll (h : m.Fair g S first todo) {parts : List Nat} (shows : ∀ j ∈ parts, ∃ v, S v j) :
    ∃ m', parts.foldlM Making.make m = .ok m' ∧ m'.Fair g S first todo ∧ m.Onward m' ∧ ∀ j ∈ parts, m'.Has j := by
  induction parts generalizing m with
  | nil => exact ⟨m, rfl, h, .refl m, by simp⟩
  | cons j parts ih =>
    obtain ⟨⟨v, first⟩, others⟩ := List.forall_mem_cons.1 shows
    obtain ⟨m₁, made, fair, onward, has⟩ := h.make closed first
    obtain ⟨m₂, makes, fair', onward', hass⟩ := ih fair others
    refine ⟨m₂, ?_, fair', onward.trans onward', List.forall_mem_cons.2 ⟨onward'.has has, hass⟩⟩
    rw [List.foldlM_cons, made]
    exact makes

/-- The node of a text is a scalar. -/
theorem get?_of_str {s : String} (shows : S (.str s) n) : g.get? n = some (.scalar .str s.toList) := by
  cases closed _ n shows with
  | scalar form node =>
    cases form
    exact node

theorem Fair.addEntry (h : m.Fair g S first todo) {s : String} {part : Nat × Nat} (key : S (.str s) part.1)
    (value : S v part.2) (entries : List (Value × Nat)) :
    ∃ m', Making.addEntry (entries, m) part = .ok (Value.insert (.str s) part.2 entries, m') ∧
      m'.Fair g S first todo ∧ m.Onward m' ∧ m'.Has part.2 := by
  obtain ⟨m₁, made, fair, onward, has⟩ := h.make closed key
  have node := get?_of_str closed key
  obtain ⟨x, here⟩ := Option.isSome_iff_exists.1 has
  -- a text is no container, so it does not wait
  have free : ¬(part.1 ∈ todo ∨ part.1 ∈ m₁.waiting) := fun waits => (fair.waits waits).2 _ _ node
  have isKey : m₁.key? part.1 = some (.str s) := by
    cases fair.stands here (fun hk => free (.inl hk)) (fun hk => free (.inr hk)) with
    | plain node' read =>
      cases node.symm.trans node'
      rw [scalarOf, String.ofList_toList] at read
      cases read
      rw [key?, here]
    | list node' => cases node.symm.trans node'
    | dict node' => cases node.symm.trans node'
  obtain ⟨m₂, made', fair', onward', has'⟩ := fair.make closed value
  refine ⟨m₂, ?_, fair', onward.trans onward', has'⟩
  simp only [Making.addEntry, made, Except.ok_bind, isKey, made', Except.pure_eq]

theorem Fair.addEntries (h : m.Fair g S first todo) {rows : List (Value × Nat)} {parts : List (Nat × Nat)}
    (shows : List.Forall₂ (fun row part => (∃ s, row.1 = .str s ∧ S (.str s) part.1) ∧ row.2 = part.2 ∧ ∃ v, S v part.2)
      rows parts) (entries : List (Value × Nat)) :
    ∃ m', parts.foldlM Making.addEntry (entries, m) =
        .ok (rows.foldl (fun entries row => Value.insert row.1 row.2 entries) entries, m') ∧
      m'.Fair g S first todo ∧ m.Onward m' ∧ ∀ row ∈ rows, m'.Has row.2 := by
  induction shows generalizing m entries with
  | nil => exact ⟨m, rfl, h, .refl m, by simp⟩
  | @cons row part rows parts here _ ih =>
    obtain ⟨key, place⟩ := row
    obtain ⟨⟨s, rfl, keyShown⟩, rfl, v, valueShown⟩ := here
    obtain ⟨m₁, added, fair, onward, has⟩ := h.addEntry closed keyShown valueShown entries
    obtain ⟨m₂, more, fair', onward', hass⟩ := ih fair (Value.insert (.str s) part.2 entries)
    refine ⟨m₂, ?_, fair', onward.trans onward', List.forall_mem_cons.2 ⟨onward'.has has, hass⟩⟩
    rw [List.foldlM_cons, added]
    exact more

/-- Looking at the content of a container that waits. -/
theorem Fair.fill (h : m.Fair g S first (n :: todo)) :
    ∃ m', m.fill n = .ok m' ∧ m'.Fair g S first todo ∧ m.Onward m' := by
  obtain ⟨has, container⟩ := h.waits (.inl List.mem_cons_self)
  obtain ⟨v, shows⟩ := h.shown has
  cases closed v n shows with
  | scalar form node => exact absurd node (container _ _)
  | list node items =>
    obtain ⟨m₁, makes, fair, onward, hass⟩ := h.makeAll closed fun j => exists_shown items
    obtain ⟨fair', onward'⟩ := fair.complete (.list node hass)
    refine ⟨_, ?_, fair', onward.trans onward'⟩
    simp only [Making.fill, h.graph, node, makes, Except.ok_bind, Except.pure_eq]
  | @dict l entries _ parts object node keys values =>
    obtain ⟨rows, sameKeys, shown⟩ := exists_rows object.text keys values
    have isRow : List.Forall₂ (IsRow g) rows parts := shown.imp fun row part h => by
      obtain ⟨⟨s, text, shows⟩, place, -⟩ := h
      exact ⟨⟨s, text, get?_of_str closed shows⟩, place⟩
    have texts : ∀ part ∈ g.entries n, ∃ s, g.get? part.1 = some (.scalar .str s) := by
      intro part hp
      simp only [Graph.entries, node] at hp
      obtain ⟨row, -, ⟨s, -, text⟩, -⟩ := exists_of_mem_right isRow hp
      exact ⟨_, text⟩
    obtain ⟨m₁, adds, fair, onward, hass⟩ := h.addEntries closed shown []
    have entered : rows.foldl (fun entries row => Value.insert row.1 row.2 entries) [] = rows :=
      Value.entriesOf_eq_self (object.of_keys_eq sameKeys)
    rw [entered] at adds
    obtain ⟨fair', onward'⟩ := fair.complete (.dict node isRow hass)
    refine ⟨_, ?_, fair', onward.trans onward'⟩
    have same : { m with graph := g } = m := by rw [← h.graph]
    have own : g.entries n = parts := by simp [Graph.entries, node]
    simp [Making.fill, h.graph, node, g.flatten_eq m.merges texts, own, same, adds]

/-- A round: all that waits is looked at. -/
theorem Fair.fillRound (h : m.Fair g S first todo) :
    ∃ m', todo.foldlM Making.fill m = .ok m' ∧ m'.Fair g S first [] ∧ m.Onward m' := by
  induction todo generalizing m with
  | nil => exact ⟨m, rfl, h, .refl m⟩
  | cons n todo ih =>
    obtain ⟨m₁, filled, fair, onward⟩ := h.fill closed
    obtain ⟨m₂, fills, fair', onward'⟩ := ih fair
    refine ⟨m₂, ?_, fair', onward.trans onward'⟩
    rw [List.foldlM_cons, filled]
    exact fills

/-- If there are more rounds left than nodes that have not been met, nothing waits in the end. -/
theorem Fair.fillAll {rounds : Nat} (h : m.Fair g S first []) (enough : m.unmet < rounds) :
    ∃ m', Making.fillAll rounds m = .ok m' ∧ m'.Fair g S first [] ∧ m'.waiting = [] ∧ ∀ {j}, m.Has j → m'.Has j := by
  induction rounds generalizing m with
  | zero => exact absurd enough (Nat.not_lt_zero _)
  | succ rounds ih =>
    by_cases done : m.waiting = []
    · exact ⟨m, by rw [Making.fillAll, if_pos (by simp [done])], h, done, id⟩
    have fair : Making.Fair g S first m.waiting.reverse { m with waiting := [] } := by
      refine ⟨h.graph, h.number, h.size, h.shown, fun made fresh _ => ?_, fun hj => ?_⟩
      · exact h.stands made (by simp) (by simpa using fresh)
      · exact h.waits (.inr (by simpa using hj))
    obtain ⟨m₁, fills, fair₁, onward⟩ := fair.fillRound closed
    have next : Making.fillAll (rounds + 1) m = Making.fillAll rounds m₁ := by
      rw [Making.fillAll, if_neg (by simpa using done), fills]
      rfl
    have load : m₁.unmet + m₁.waiting.length ≤ m.unmet := onward.load
    rw [next]
    by_cases last : m₁.waiting = []
    · refine ⟨m₁, ?_, fair₁, last, onward.has⟩
      cases rounds with
      | zero => rfl
      | succ rounds => rw [Making.fillAll, if_pos (by simp [last])]
    · have positive := List.length_pos_iff.2 last
      obtain ⟨m₂, rest, fair₂, empty, has⟩ := ih fair₁ (by omega)
      exact ⟨m₂, rest, fair₂, empty, fun hj => has (onward.has hj)⟩

end Rounds

end Making

/-- Everything in a document that shows a value can be made. -/
theorem Document.exists_made {d : Document} {S : Value → Nat → Prop} {v : Value}
    (closed : ∀ v n, S v n → Content d.graph S v n) (shows : S v d.root) (first : Nat) :
    ∃ m, d.made first = .ok m ∧ m.Fair d.graph S first [] ∧ m.waiting = [] ∧ m.Has d.root := by
  have empty : (Making.start first d.graph).Fair d.graph S first [] := by
    have none (n : Nat) : (Making.start first d.graph).made? n = none := by
      simp only [Making.start, Making.made?, Array.getElem?_replicate]
      split <;> rfl
    refine ⟨rfl, rfl, by simp [Making.start], fun hn => ?_, fun made => ?_, fun hn => ?_⟩
    · simp [Making.Has, none] at hn
    · simp [none] at made
    · simp [Making.start] at hn
  obtain ⟨m, made, fair, onward, has⟩ := empty.make closed shows
  have few : m.unmet < d.graph.size + 1 := by
    have most : m.unmet ≤ m.made.toList.length := List.countP_le_length
    rw [Array.length_toList, fair.size] at most
    omega
  obtain ⟨m', fills, fair', done, keeps⟩ := fair.fillAll closed few
  refine ⟨m', ?_, fair', done, keeps has⟩
  rw [Document.made, made]
  exact fills

end ZincModel.Yaml
