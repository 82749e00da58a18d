import ZincModel.Proofs.Success
import ZincModel.Proofs.Value.Induction
import ZincModel.Proofs.Value.Object
import ZincModel.Proofs.Yaml.Outlines
import ZincModel.Yaml.Document

/-!
# From tokens to nodes

The nodes that are read from the tokens of a value show the value (`Shown`): a node has the tag and the text of a
scalar, or it holds nodes that show what the value holds. Where an alias stands, the value is shown by the node behind
the anchor. What is read later changes no node but those of the containers around it, so what is `Shown` is said about
every document that the reading may end with.
-/

namespace ZincModel.Yaml

/-! ## Tables of nodes -/

namespace Graph

variable {g : Graph} {node : Node} {j n : Nat}

@[simp] theorem size_add : (g.add node).size = g.size + 1 := by simp [add, size]

@[simp] theorem size_put : (g.put n node).size = g.size := by simp [put, size]

theorem get?_add_of_lt (h : j < g.size) : (g.add node).get? j = g.get? j := by
  have differ : j ≠ g.nodes.size := Nat.ne_of_lt h
  simp [add, get?, Array.getElem?_push, differ]

theorem get?_add_self : (g.add node).get? g.size = some node := by simp [add, get?, size]

theorem get?_put_of_ne (h : j ≠ n) : (g.put n node).get? j = g.get? j := by
  simp [put, get?, h.symm]

theorem get?_put_self (h : n < g.size) : (g.put n node).get? n = some node := by
  have bound : n < g.nodes.size := h
  simp [put, get?, bound]

end Graph

/-! ## Nodes that show values -/

/-- The tag and the text that a scalar is written with, unless it is too long. -/
def scalarForm : Value → Option (Tag × List Char)
  | .null => some (.null, "null".toList)
  | .bool b => some (.bool, if b then "true".toList else "false".toList)
  | .int n => if Integer.fits n then some (.int, Integer.numeral n) else none
  | .float _ x => some (.float, floatText x)
  | .str s => some (.str, s.toList)
  | _ => none

/-- The node at a place has the content of the value, if `S` tells which values the nodes in it show. -/
inductive Content (g : Graph) (S : Value → Nat → Prop) : Value → Nat → Prop
  | scalar {v : Value} {n : Nat} {tag : Tag} {s : List Char} :
      scalarForm v = some (tag, s) → g.get? n = some (.scalar tag s) → Content g S v n
  | list {l : Option Label} {items : List Value} {n : Nat} {parts : List Nat} :
      g.get? n = some (.sequence .seq parts) → List.Forall₂ S items parts → Content g S (.list l items) n
  | dict {l : Option Label} {entries : List (Value × Value)} {n : Nat} {parts : List (Nat × Nat)} :
      Value.IsObject entries → g.get? n = some (.mapping .map parts) →
      List.Forall₂ S (entries.map Prod.fst) (parts.map Prod.fst) →
      List.Forall₂ S (entries.map Prod.snd) (parts.map Prod.snd) → Content g S (.dict l entries) n

/-- The node at a place shows the value, or stands behind the anchor of the value. -/
inductive Shown (shared : Nat → Value) (g : Graph) (place : Nat → Option Nat) : Value → Nat → Prop
  | reference {m n : Nat} : place m = some n → Shown shared g place (shared m) n
  | content {v : Value} {n : Nat} : Content g (Shown shared g place) v n → Shown shared g place v n

/-! ## Reading nodes -/

section Node

variable {handles : Handles} {inBlock indentless : Bool} {fuel : Nat} {r : Reading} {rest : List Token}
  {anchor : Option (List Char)}

/-- A container is started, and completed when what it holds has been read. -/
def Reading.hold {α : Type} (r : Reading) (anchor : Option (List Char)) (node : List α → Node) (rest : List Token)
    (read : Reading → Except Fault (List α × Reading)) : Except Fault (Nat × Reading) := do
  let (n, r) ← r.start anchor (node []) rest
  let (parts, r) ← read r
  return r.complete n (node parts)

theorem readNode_reference {name : List Char} {n : Nat} (here : r.tokens = .alias name :: rest)
    (found : r.anchors.lookup name = some n) :
    readNode handles inBlock indentless (fuel + 1) r = .ok (n, { r with tokens := rest }) := by
  simp only [readNode, here, found]

theorem readNode_scalar {isPlain : Bool} {s : List Char} (here : r.tokens = .scalar isPlain s :: rest) :
    readNode handles inBlock indentless (fuel + 1) r =
      .ok (r.add (.scalar (if isPlain then tagOfPlain s else .str) s) rest) := by
  simp [readNode, here, takeProperties, Properties.tagName, explicitTag, Reading.start, Reading.isTaken]

theorem readNode_blockSequence (here : r.tokens = (anchor.map Token.anchor).toList ++ .blockSequence :: rest) :
    readNode handles true indentless (fuel + 1) r =
      r.hold anchor (.sequence .seq) rest (readItems handles false fuel) := by
  cases anchor <;> simp [readNode, here, takeProperties, Properties.tagName, explicitTag, Reading.hold]

theorem readNode_flush (here : r.tokens = (anchor.map Token.anchor).toList ++ .item :: rest) :
    readNode handles true true (fuel + 1) r =
      r.hold anchor (.sequence .seq) (.item :: rest) (readItems handles true fuel) := by
  cases anchor <;> simp [readNode, here, takeProperties, Properties.tagName, explicitTag, Reading.hold]

theorem readNode_blockMapping (here : r.tokens = (anchor.map Token.anchor).toList ++ .blockMapping :: rest) :
    readNode handles true indentless (fuel + 1) r =
      r.hold anchor (.mapping .map) rest (readEntries handles fuel) := by
  cases anchor <;> simp [readNode, here, takeProperties, Properties.tagName, explicitTag, Reading.hold]

theorem readNode_flowSequence (here : r.tokens = (anchor.map Token.anchor).toList ++ .flowSequence :: rest) :
    readNode handles true indentless (fuel + 1) r =
      r.hold anchor (.sequence .seq) rest (readFlowItems handles true fuel) := by
  cases anchor <;> simp [readNode, here, takeProperties, Properties.tagName, explicitTag, Reading.hold]

theorem readNode_flowMapping (here : r.tokens = (anchor.map Token.anchor).toList ++ .flowMapping :: rest) :
    readNode handles true indentless (fuel + 1) r =
      r.hold anchor (.mapping .map) rest (readFlowEntries handles true fuel) := by
  cases anchor <;> simp [readNode, here, takeProperties, Properties.tagName, explicitTag, Reading.hold]

end Node

/-! ## What is read later -/

/-- The anchors are different words. -/
structure Anchors.Proper (anchors : Anchors) : Prop where
  named : anchors.Named
  injective : ∀ {m n name}, anchors.lookup m = some name → anchors.lookup n = some name → m = n

namespace Reading

variable (anchors : Anchors) (shared : Nat → Value)

/-- Nodes and anchors that are there stay as they are. -/
structure Ext (r r' : Reading) : Prop where
  size : r.graph.size ≤ r'.graph.size
  same : ∀ j < r.graph.size, r'.graph.get? j = r.graph.get? j
  anchors : ∀ name n, r.anchors.lookup name = some n → r'.anchors.lookup name = some n

/-- The anchors of the values that have been met are there, and no others. -/
def Meets (r : Reading) (met : Met) : Prop :=
  ∀ m name, anchors.lookup m = some name → ((r.anchors.lookup name).isSome ↔ m ∈ met)

/-- The document `g` has the nodes from `first` on and all anchors. -/
structure Kept (r : Reading) (first : Nat) (g : Graph) (place : Nat → Option Nat) : Prop where
  nodes : ∀ j, first ≤ j → j < r.graph.size → g.get? j = r.graph.get? j
  places : ∀ m name n, anchors.lookup m = some name → r.anchors.lookup name = some n → place m = some n

/-- What has been read from `r` to `r'`: the values that have been met since then are shown behind their anchors, and
`P` holds of every document that keeps what has been read. -/
structure Grows (r r' : Reading) (met met' : Met) (P : Graph → (Nat → Option Nat) → Prop) : Prop where
  ext : r.Ext r'
  meets : r'.Meets anchors met'
  shown : ∀ {g place}, r'.Kept anchors r.graph.size g place → P g place ∧ ∀ m ∈ met', m ∉ met →
    (anchors.lookup m).isSome → ∃ n, place m = some n ∧ Content g (Shown shared g place) (shared m) n

variable {anchors shared} {r r' r'' : Reading} {met met' met'' : Met} {P Q : Graph → (Nat → Option Nat) → Prop}

theorem Ext.trans (h : r.Ext r') (h' : r'.Ext r'') : r.Ext r'' where
  size := Nat.le_trans h.size h'.size
  same j hj := (h'.same j (Nat.lt_of_lt_of_le hj h.size)).trans (h.same j hj)
  anchors name n found := h'.anchors name n (h.anchors name n found)

theorem Kept.earlier {first : Nat} {g : Graph} {place : Nat → Option Nat} (h : r'.Kept anchors first g place)
    (ext : r.Ext r') : r.Kept anchors first g place where
  nodes j low high := (h.nodes j low (Nat.lt_of_lt_of_le high ext.size)).trans (ext.same j high)
  places m name n word found := h.places m name n word (ext.anchors name n found)

theorem Kept.later {first first' : Nat} {g : Graph} {place : Nat → Option Nat} (h : r.Kept anchors first g place)
    (later : first ≤ first') : r.Kept anchors first' g place :=
  ⟨fun j low high => h.nodes j (Nat.le_trans later low) high, h.places⟩

theorem Grows.imp (h : r.Grows anchors shared r' met met' P) (f : ∀ {g place}, P g place → Q g place) :
    r.Grows anchors shared r' met met' Q :=
  ⟨h.ext, h.meets, fun kept => ⟨f (h.shown kept).1, (h.shown kept).2⟩⟩

/-- The tokens do not matter. -/
theorem Grows.of_tokens {tokens : List Token} (h : { r with tokens := tokens }.Grows anchors shared r' met met' P) :
    r.Grows anchors shared r' met met' P :=
  ⟨⟨h.ext.size, h.ext.same, h.ext.anchors⟩, h.meets, h.shown⟩

theorem Grows.refl (meets : r.Meets anchors met) (tokens : List Token) :
    r.Grows anchors shared { r with tokens := tokens } met met fun _ _ => True :=
  ⟨⟨Nat.le_refl _, fun _ _ => rfl, fun _ _ => id⟩, meets, fun _ => ⟨trivial, fun _ hm fresh => absurd hm fresh⟩⟩

theorem Grows.trans (h : r.Grows anchors shared r' met met' P) (h' : r'.Grows anchors shared r'' met' met'' Q) :
    r.Grows anchors shared r'' met met'' fun g place => P g place ∧ Q g place where
  ext := h.ext.trans h'.ext
  meets := h'.meets
  shown kept := by
    obtain ⟨p, first⟩ := h.shown (kept.earlier h'.ext)
    obtain ⟨q, second⟩ := h'.shown (kept.later h.ext.size)
    refine ⟨⟨p, q⟩, fun m hm fresh named => ?_⟩
    by_cases known : m ∈ met'
    · exact first m known fresh named
    · exact second m hm known named

/-- A scalar is added. -/
theorem Grows.add (meets : r.Meets anchors met) (node : Node) (tokens : List Token) :
    r.Grows anchors shared (r.add node tokens).2 met met fun g _ => g.get? r.graph.size = some node where
  ext := ⟨by simp [Reading.add], fun _ => Graph.get?_add_of_lt, fun _ _ => id⟩
  meets := meets
  shown kept := by
    have last := kept.nodes r.graph.size (Nat.le_refl _) (by simp [Reading.add])
    exact ⟨last.trans Graph.get?_add_self, fun _ hm fresh => absurd hm fresh⟩

/-- The reading of what a container holds starts here. -/
def started (r : Reading) (anchor : Option (List Char)) (node : Node) (rest : List Token) : Reading where
  tokens := rest
  anchors := (anchor.map (·, r.graph.size)).toList ++ r.anchors
  graph := r.graph.add node

theorem hold_eq {α : Type} {anchor : Option (List Char)} {node : List α → Node} {rest : List Token}
    {read : Reading → Except Fault (List α × Reading)} {parts : List α} (free : r.isTaken anchor = false)
    (h : read (r.started anchor (node []) rest) = .ok (parts, r')) :
    r.hold anchor node rest read = .ok (r'.complete r.graph.size (node parts)) := by
  have start : r.start anchor (node []) rest = .ok (r.graph.size, r.started anchor (node []) rest) := by
    rw [Reading.start, free]
    cases anchor <;> rfl
  rw [hold, start]
  simp only [Except.ok_bind, h, Except.pure_eq]

section Container

variable {number : Option Nat} {node : Node} {rest : List Token}

theorem anchorOf_eq_some {m : Option Nat} {name : List Char} (h : anchorOf anchors m = some name) :
    ∃ n, m = some n ∧ anchors.lookup n = some name := Option.bind_eq_some_iff.1 h

/-- An anchor that has not been met is free. -/
theorem Meets.lookup_eq_none (meets : r.Meets anchors met) (fresh : ∀ m, number = some m → m ∉ met) {name : List Char}
    (word : anchorOf anchors number = some name) : r.anchors.lookup name = none := by
  obtain ⟨m, rfl, found⟩ := anchorOf_eq_some word
  have absent := mt (meets m name found).1 (fresh m rfl)
  exact Option.not_isSome_iff_eq_none.1 absent

theorem Meets.isTaken (meets : r.Meets anchors met) (fresh : ∀ m, number = some m → m ∉ met) :
    r.isTaken (anchorOf anchors number) = false := by
  cases word : anchorOf anchors number with
  | none => rfl
  | some name => simp [Reading.isTaken, meets.lookup_eq_none fresh word]

theorem Meets.ext_started (meets : r.Meets anchors met) (fresh : ∀ m, number = some m → m ∉ met) :
    r.Ext (r.started (anchorOf anchors number) node rest) where
  size := by simp [started]
  same j hj := Graph.get?_add_of_lt hj
  anchors name n found := by
    cases word : anchorOf anchors number with
    | none => exact found
    | some name' =>
      have differ : name ≠ name' := by
        rintro rfl
        rw [meets.lookup_eq_none fresh word] at found
        cases found
      simpa [started, List.lookup_cons, beq_eq_false_iff_ne.2 differ] using found

/-- The anchor of a container is there as soon as the container is started. -/
theorem Meets.started (proper : anchors.Proper) (meets : r.Meets anchors met) (number : Option Nat) (node : Node)
    (rest : List Token) :
    (r.started (anchorOf anchors number) node rest).Meets anchors (number.toList ++ met) := by
  intro m name found
  cases number with
  | none => exact meets m name found
  | some m' =>
    cases word : anchors.lookup m' with
    | none =>
      have differ : m ≠ m' := by
        rintro rfl
        rw [found] at word
        cases word
      simpa [Reading.started, anchorOf, word, differ] using meets m name found
    | some name' =>
      by_cases same : name = name'
      · subst same
        have here := proper.injective found word
        simp [Reading.started, anchorOf, word, here]
      · have differ : m ≠ m' := by
          rintro rfl
          rw [found] at word
          exact same (Option.some.inj word)
        simpa [Reading.started, anchorOf, word, List.lookup_cons, beq_eq_false_iff_ne.2 same, differ] using
          meets m name found

/-- A container with all that it holds. -/
theorem Grows.hold {v : Value} {node' : Node} (meets : r.Meets anchors met)
    (fresh : ∀ m, number = some m → m ∉ met) (coherent : ∀ m, number = some m → shared m = v)
    (h : (r.started (anchorOf anchors number) node rest).Grows anchors shared r' (number.toList ++ met) met' P)
    (content : ∀ {g place}, g.get? r.graph.size = some node' → P g place →
      Content g (Shown shared g place) v r.graph.size) :
    r.Grows anchors shared (r'.complete r.graph.size node').2 met met'
      fun g place => Shown shared g place v r.graph.size := by
  have ext : r.Ext (r.started (anchorOf anchors number) node rest) := meets.ext_started fresh
  have size : (r.started (anchorOf anchors number) node rest).graph.size = r.graph.size + 1 := Graph.size_add
  have inside : r.graph.size < r'.graph.size := by
    have bound := h.ext.size
    omega
  refine ⟨⟨?_, fun j hj => ?_, fun name n found => h.ext.anchors name n (ext.anchors name n found)⟩, h.meets, ?_⟩
  · simpa [complete] using Nat.le_of_lt inside
  · have unchanged := (ext.trans h.ext).same j hj
    rw [← unchanged]
    exact Graph.get?_put_of_ne (Nat.ne_of_lt hj)
  · intro g place kept
    have own : g.get? r.graph.size = some node' :=
      (kept.nodes _ (Nat.le_refl _) (by simpa [complete] using inside)).trans (Graph.get?_put_self inside)
    have kept' : r'.Kept anchors (r.started (anchorOf anchors number) node rest).graph.size g place := by
      refine ⟨fun j low high => ?_, kept.places⟩
      rw [kept.nodes j (by omega) (by simpa [complete] using high)]
      exact Graph.get?_put_of_ne (by omega)
    obtain ⟨p, others⟩ := h.shown kept'
    refine ⟨.content (content own p), fun m hm new named => ?_⟩
    by_cases here : number = some m
    · obtain ⟨name, word⟩ := Option.isSome_iff_exists.1 named
      have known : r'.anchors.lookup name = some r.graph.size := by
        apply h.ext.anchors
        simp [started, here, anchorOf, word]
      refine ⟨_, kept.places m name _ word known, ?_⟩
      rw [coherent m here]
      exact content own p
    · refine others m hm (fun known => ?_) named
      rcases List.mem_append.1 known with known | known
      · exact here (Option.mem_toList.1 known)
      · exact new known

end Container

end Reading

end ZincModel.Yaml
