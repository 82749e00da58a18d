import Mathlib.Data.List.Nodup
import Mathlib.Logic.Relation
import ZincModel.Proofs.Value.Renewed
import ZincModel.Proofs.Yaml.Making
import ZincModel.Yaml.Meaning

/-!
# The values of nodes

Where all nodes stand for what they show, a node has the value it shows, made anew (`Making.renewing_valueOf`). Values
are finite, so no node is part of itself (`Graph.accessible`), and no loop is met. A node that has been found before is
taken over, whatever it is met in, since it holds no loop.
-/

namespace ZincModel.Yaml

open Relation (TransGen)

/-! ## Parts of nodes -/

namespace Graph

/-- The first node is held by the second one, be it as an item or as a value under a key. -/
inductive IsPart (g : Graph) (j n : Nat) : Prop
  | item {tag : Tag} {parts : List Nat} : g.get? n = some (.sequence tag parts) → j ∈ parts → IsPart g j n
  | value {tag : Tag} {parts : List (Nat × Nat)} :
    g.get? n = some (.mapping tag parts) → j ∈ parts.map Prod.snd → IsPart g j n

variable {g : Graph} {S : Value → Nat → Prop} {v : Value} {j n : Nat}

/-- What is held by a node that shows a value shows one that is held by the value. -/
theorem IsPart.shown (closed : ∀ v n, S v n → Content g S v n) (part : g.IsPart j n) (shows : S v n) :
    (∃ l items, v = .list l items ∧ ∃ u ∈ items, S u j) ∨
      ∃ l entries, v = .dict l entries ∧ ∃ e ∈ entries, S e.2 j := by
  cases closed v n shows with
  | scalar _ node =>
    cases part with
    | item node' => cases node.symm.trans node'
    | value node' => cases node.symm.trans node'
  | list node items =>
    cases part with
    | item node' hj =>
      cases node.symm.trans node'
      exact .inl ⟨_, _, rfl, Making.exists_of_mem_right items hj⟩
    | value node' => cases node.symm.trans node'
  | dict _ node _ values =>
    cases part with
    | item node' => cases node.symm.trans node'
    | value node' hj =>
      cases node.symm.trans node'
      obtain ⟨u, hu, shows⟩ := Making.exists_of_mem_right values hj
      obtain ⟨e, he, rfl⟩ := List.mem_map.1 hu
      exact .inr ⟨_, _, rfl, e, he, shows⟩

/-- A node that shows a value has no endless row of parts of parts. -/
theorem accessible (closed : ∀ v n, S v n → Content g S v n) (shows : S v n) : Acc g.IsPart n := by
  induction v using Value.induction generalizing n with
  | scalar v isScalar =>
    refine .intro n fun j part => ?_
    rcases part.shown closed shows with ⟨l, items, rfl, -⟩ | ⟨l, entries, rfl, -⟩
    · cases isScalar
    · cases isScalar
  | list l items ih =>
    refine .intro n fun j part => ?_
    rcases part.shown closed shows with ⟨_, _, e, u, hu, shows⟩ | ⟨_, _, e, -⟩
    · cases e
      exact ih u hu shows
    · cases e
  | tuple l items ih =>
    refine .intro n fun j part => ?_
    rcases part.shown closed shows with ⟨_, _, e, -⟩ | ⟨_, _, e, -⟩ <;> cases e
  | set l items ih =>
    refine .intro n fun j part => ?_
    rcases part.shown closed shows with ⟨_, _, e, -⟩ | ⟨_, _, e, -⟩ <;> cases e
  | dict l entries ih =>
    refine .intro n fun j part => ?_
    rcases part.shown closed shows with ⟨_, _, e, -⟩ | ⟨_, _, e, entry, he, shows⟩
    · cases e
    · cases e
      exact (ih entry he).2 shows

theorem not_transGen_self {r : Nat → Nat → Prop} (h : Acc r n) : ¬TransGen r n n := by
  induction h with
  | intro n _ ih =>
    intro loop
    obtain ⟨j, behind, part⟩ := TransGen.tail'_iff.1 loop
    exact ih j part (TransGen.head' part behind)

end Graph

/-! ## What has been found -/

variable {S : Value → Nat → Prop} {found : Found} {n : Nat}

theorem holdsLoop_eq_false {v v' : Value} (h : v.Renewed v') : holdsLoop v' = false := by
  cases h <;> rfl

theorem any_holdsLoop_eq_false {vs vs' : List Value} (h : List.Forall₂ Value.Renewed vs vs') :
    vs'.any holdsLoop = false := by
  rw [List.any_eq_false]
  intro v' hv
  obtain ⟨v, -, renewed⟩ := Making.exists_of_mem_right h hv
  simp [holdsLoop_eq_false renewed]

/-- What has been found at the places of nodes is what they show, made anew. -/
def Found.Renews (S : Value → Nat → Prop) (found : Found) : Prop :=
  ∀ {j : Nat} {path : List Nat} {v' : Value}, found[j]?.join = some (path, v') → ∀ v, S v j → v.Renewed v'

theorem Found.Renews.set (h : found.Renews S) {v' : Value} (renewed : ∀ v, S v n → v.Renewed v') (path : List Nat) :
    Found.Renews S (found.setIfInBounds n (some (path, v'))) := by
  intro j path' v'' there
  by_cases e : n = j
  · subst e
    by_cases inside : n < found.size
    · rw [Array.getElem?_setIfInBounds_self_of_lt inside] at there
      cases there
      exact renewed
    · rw [Array.setIfInBounds_eq_of_size_le (Nat.le_of_not_lt inside)] at there
      exact h there
  · rw [Array.getElem?_setIfInBounds_ne e] at there
    exact h there

/-- What has been found holds no loop, so it is taken over wherever the node is met. -/
theorem Found.Renews.get? (h : found.Renews S) {path : List Nat} {v' : Value}
    (there : found.get? path n = some v') : ∀ v, S v n → v.Renewed v' := by
  unfold Found.get? at there
  split at there
  · next p v'' e =>
    split_ifs at there
    cases there
    exact h e
  · cases there

/-- Where nodes have been found as they show, this finds one more node so. -/
def Renewing (S : Value → Nat → Prop) (n : Nat) (find : Found → Value × Found) : Prop :=
  ∀ found : Found, found.Renews S → (∀ v, S v n → v.Renewed (find found).1) ∧ (find found).2.Renews S

/-- The values of a row of nodes are what they show, made anew. -/
theorem valuesOf_renewed {value : Nat → Found → Value × Found} {parts : List Nat}
    (h : ∀ j ∈ parts, Renewing S j (value j)) (known : found.Renews S) :
    (∀ vs, List.Forall₂ S vs parts → List.Forall₂ Value.Renewed vs (valuesOf value parts found).1) ∧
      (valuesOf value parts found).2.Renews S := by
  induction parts generalizing found with
  | nil =>
    refine ⟨fun vs shown => ?_, known⟩
    cases shown
    exact .nil
  | cons j parts ih =>
    obtain ⟨here, others⟩ := List.forall_mem_cons.1 h
    obtain ⟨renewed, known₁⟩ := here found known
    obtain ⟨renews, known₂⟩ := ih others known₁
    refine ⟨fun vs shown => ?_, known₂⟩
    cases shown with
    | cons first shown => exact .cons (renewed _ first) (renews _ shown)

/-! ## Values -/

section Containers

variable {g : Graph} (closed : ∀ v n, S v n → Content g S v n) {value : Nat → Found → Value × Found} {number : Nat}

include closed

/-- A sequence is found if its items are. -/
theorem renewing_list {parts : List Nat} (node : g.get? n = some (.sequence .seq parts))
    (h : ∀ j ∈ parts, Renewing S j (value j)) : Renewing S n (containerOf value number (.list parts)) := by
  intro found known
  obtain ⟨renews, known'⟩ := valuesOf_renewed h known
  refine ⟨fun v shows => ?_, known'⟩
  cases closed v n shows with
  | scalar _ node' => cases node.symm.trans node'
  | dict _ node' => cases node.symm.trans node'
  | list node' items =>
    cases node.symm.trans node'
    have renewed := renews _ items
    simp only [containerOf, any_holdsLoop_eq_false renewed]
    exact .list _ _ renewed

/-- The node of a key tells the key. -/
theorem keys_unique {rows : List (Value × Nat)} {parts : List (Nat × Nat)} (isRow : List.Forall₂ (IsRow g) rows parts)
    {keys : List Value} (text : ∀ k ∈ keys, ∃ s, k = .str s) (shown : List.Forall₂ S keys (parts.map Prod.fst)) :
    rows.map Prod.fst = keys := by
  let IsKey (k : Value) (j : Nat) : Prop := ∃ s : String, k = .str s ∧ g.get? j = some (.scalar .str s.toList)
  have unique : Relator.LeftUnique IsKey := by
    rintro k j k' ⟨s, rfl, node⟩ ⟨s', rfl, node'⟩
    have same : s.toList = s'.toList := by simpa using node.symm.trans node'
    obtain rfl : s = s' := String.toList_inj.1 same
    rfl
  have first : List.Forall₂ IsKey (rows.map Prod.fst) (parts.map Prod.fst) := by
    rw [List.forall₂_map_left_iff, List.forall₂_map_right_iff]
    exact isRow.imp fun _ _ row => row.1
  have second : List.Forall₂ IsKey keys (parts.map Prod.fst) := by
    refine ((List.forall₂_and_left keys _).2 ⟨text, shown⟩).imp ?_
    rintro k j ⟨⟨s, rfl⟩, shows⟩
    exact ⟨s, rfl, Making.get?_of_str closed shows⟩
  exact List.left_unique_forall₂' unique first second

/-- A mapping is found if the values of its entries are. -/
theorem renewing_dict {parts : List (Nat × Nat)} {rows : List (Value × Nat)}
    (node : g.get? n = some (.mapping .map parts)) (isRow : List.Forall₂ (IsRow g) rows parts)
    (h : ∀ j ∈ parts.map Prod.snd, Renewing S j (value j)) : Renewing S n (containerOf value number (.dict rows)) := by
  intro found known
  have places : rows.map Prod.snd = parts.map Prod.snd := by
    rw [← List.forall₂_eq_eq_eq, List.forall₂_map_left_iff, List.forall₂_map_right_iff]
    exact isRow.imp fun _ _ row => row.2
  rw [← places] at h
  obtain ⟨renews, known'⟩ := valuesOf_renewed h known
  refine ⟨fun v shows => ?_, known'⟩
  cases closed v n shows with
  | scalar _ node' => cases node.symm.trans node'
  | list node' => cases node.symm.trans node'
  | dict object node' keys values =>
    cases node.symm.trans node'
    have renewed := renews _ (places ▸ values)
    have own := keys_unique closed isRow (List.forall_mem_map.2 object.text) keys
    have length := renewed.length_eq
    simp only [containerOf, any_holdsLoop_eq_false renewed]
    refine .dict _ _ object ?_ ?_
    · rw [List.map_fst_zip, own]
      simp [own, ← length]
    · rw [List.map_snd_zip]
      · exact renewed
      · simp [own, ← length]

end Containers

namespace Making

variable {g : Graph} {first : Nat} {m : Making}

/-- When nothing waits any more, every node stands for what it shows. -/
theorem Fair.settled (fair : m.Fair g S first []) (done : m.waiting = []) {x : Made} (made : m.made? n = some x) :
    Stands g first m.Has n x :=
  fair.stands made List.not_mem_nil (by simp [done])

/-- A container is found as what it is made of, unless it has been found before. -/
theorem renewing_container {fuel : Nat} {path : List Nat} {x : Made} (made : m.made? n = some x)
    (container : ∀ v, x ≠ .plain v) (new : n ∉ path)
    (h : Renewing S n (containerOf (valueOf m fuel (n :: path)) (m.first + n) x)) :
    Renewing S n (valueOf m (fuel + 1) path n) := by
  intro found known
  have outside : path.contains n = false := by simpa using new
  cases x with
  | plain v => exact absurd rfl (container v)
  | _ =>
    simp only [valueOf, made, outside, Bool.false_eq_true, if_false]
    cases e : found.get? path n with
    | some v => exact ⟨known.get? e, known⟩
    | none => exact ⟨(h found known).1, Found.Renews.set (h found known).2 (h found known).1 path⟩

/-- A node inside of others that hold it is found as what it shows, made anew. -/
theorem renewing_valueOf (closed : ∀ v n, S v n → Content g S v n) (fair : m.Fair g S first []) (done : m.waiting = [])
    {fuel : Nat} {path : List Nat} (has : m.Has n) (above : ∀ p ∈ path, TransGen g.IsPart n p) (nodup : path.Nodup)
    (inside : ∀ p ∈ path, p < g.size) (enough : g.size < fuel + path.length) :
    Renewing S n (valueOf m fuel path n) := by
  induction fuel generalizing path n with
  | zero =>
    have short := (List.subperm_of_subset nodup fun p hp => List.mem_range.2 (inside p hp)).length_le
    rw [List.length_range] at short
    omega
  | succ fuel ih =>
    obtain ⟨x, made⟩ := Option.isSome_iff_exists.1 has
    obtain ⟨v₀, shown⟩ := fair.shown has
    have here : n < g.size := fair.size ▸ has.lt_size
    -- a node around this one that were this one would be part of itself
    have new : n ∉ path := fun hn => Graph.not_transGen_self (Graph.accessible closed shown) (above n hn)
    have within {j : Nat} (part : g.IsPart j n) (has : m.Has j) : Renewing S j (valueOf m fuel (n :: path) j) :=
      ih has (List.forall_mem_cons.2 ⟨.single part, fun p hp => .head part (above p hp)⟩)
        (List.nodup_cons.2 ⟨new, nodup⟩) (List.forall_mem_cons.2 ⟨here, inside⟩) (by simp; omega)
    cases fair.settled done made with
    | plain node read =>
      intro found known
      rw [valueOf, made]
      refine ⟨fun v shows => ?_, known⟩
      cases closed v n shows with
      | scalar form node' =>
        cases node.symm.trans node'
        obtain ⟨v', read', renewed⟩ := scalarOf_form form (first + n)
        cases read.symm.trans read'
        exact renewed
      | list node' => cases node.symm.trans node'
      | dict _ node' => cases node.symm.trans node'
    | list node hass =>
      exact renewing_container made (by simp) new
        (renewing_list closed node fun j hj => within (.item node hj) (hass j hj))
    | dict node isRow hass =>
      refine renewing_container made (by simp) new (renewing_dict closed node isRow fun j hj => ?_)
      obtain ⟨part, hp, rfl⟩ := List.mem_map.1 hj
      obtain ⟨row, hr, -, place⟩ := exists_of_mem_right isRow hp
      exact within (.value node hj) (place ▸ hass row hr)

end Making

end ZincModel.Yaml
