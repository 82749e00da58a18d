import ZincModel.Proofs.Failure
import ZincModel.Yaml.Document

/-!
# What keeps tokens from being a document

The functions that read nodes are stopped by a token that tells of a fault, or by tokens that form no document, which
is a fault of the syntax. As tokens are only ever taken from the front, what is known of the faults in all of them is
known of those in the rest (`Heralds`).
-/

namespace ZincModel.Yaml

open Except (Ends)

variable {P : Fault → Prop}

/-- All faults that the tokens tell of are `P`. -/
def Heralds (P : Fault → Prop) (tokens : List Token) : Prop := ∀ f, .bad f ∈ tokens → P f

namespace Heralds

variable {tokens rest : List Token} {t : Token}

theorem tail (h : Heralds P (t :: rest)) : Heralds P rest := fun f mem => h f (List.mem_cons_of_mem _ mem)

theorem behind (h : Heralds P tokens) (e : tokens = t :: rest) : Heralds P rest := tail (e ▸ h)

theorem unexpected (h : Heralds P tokens) (yaml : P .yaml) : P (unexpected tokens) := by
  unfold Yaml.unexpected
  split
  · next f rest => exact h f List.mem_cons_self
  · exact yaml

theorem takeProperties (h : Heralds P tokens) : Ends P (fun r => Heralds P r.2) (takeProperties tokens) := by
  unfold Yaml.takeProperties
  split
  · exact .ok h.tail.tail
  · exact .ok h.tail.tail
  · exact .ok h.tail
  · exact .error (h _ (by simp))
  · exact .ok h.tail
  · exact .ok h

theorem dropDocumentEnds (h : Heralds P tokens) : Heralds P (dropDocumentEnds tokens) := by
  induction tokens with
  | nil => exact h
  | cons t rest ih =>
    unfold Yaml.dropDocumentEnds
    split
    · next e =>
      cases e
      exact ih h.tail
    · exact h

theorem readDirectives (h : Heralds P tokens) (yaml : P .yaml) (hasVersion : Bool) (handles : Handles) :
    Ends P (fun r => Heralds P r.2) (readDirectives hasVersion handles tokens) := by
  induction tokens generalizing hasVersion handles with
  | nil => exact .ok h
  | cons t rest ih =>
    unfold Yaml.readDirectives
    split
    · next e =>
      cases e
      exact .ite (.error yaml) (ih h.tail _ _)
    · next e =>
      cases e
      exact .ite (.error yaml) (ih h.tail _ _)
    · next e =>
      cases e
      exact ih h.tail _ _
    · exact .ok h

end Heralds

theorem Properties.tagName_ends (yaml : P .yaml) (p : Properties) (handles : Handles) :
    Ends P (fun _ => True) (p.tagName handles) := by
  have named (t : Option (List Char) × List Char) : Ends P (fun _ => True) (fullName handles t) := by
    unfold fullName
    split
    · exact .ok trivial
    · split
      · exact .ok trivial
      · exact .error yaml
  unfold Properties.tagName
  split
  · exact (named _).map fun _ _ => trivial
  · exact .ok trivial

/-! ## Nodes -/

/-- A part of a document is read, with tokens left whose faults are `P`, or the reading stops with such a fault. -/
abbrev Composes {α : Type} (P : Fault → Prop) : Except Fault (α × Reading) → Prop :=
  Ends P fun r => Heralds P r.2.tokens

theorem Reading.start_composes (yaml : P .yaml) (r : Reading) (anchor : Option (List Char)) (node : Node)
    {rest : List Token} (h : Heralds P rest) : Composes P (r.start anchor node rest) := by
  unfold Reading.start
  refine .ite (.error yaml) ?_
  dsimp only
  split
  · exact .ok h
  · exact .ok h

/-- A container is completed behind its content. -/
theorem Reading.held_composes (yaml : P .yaml) {α : Type} (r : Reading) (anchor : Option (List Char)) (node : Node)
    {rest : List Token} (h : Heralds P rest) {read : Reading → Except Fault (α × Reading)}
    (reads : ∀ {r : Reading}, Heralds P r.tokens → Composes P (read r)) (whole : α → Node) :
    Composes P (r.start anchor node rest >>= fun x => read x.2 >>= fun y => .ok (y.2.complete x.1 (whole y.1))) :=
  (r.start_composes yaml anchor node h).bind fun _ h => (reads h).bind fun _ h => .ok h

/-- A part that may be left out is read in front of others. -/
theorem Reading.part_composes {β : Type} (r : Reading) (isLeftOut : Bool) {rest : List Token} (h : Heralds P rest)
    {x : Except Fault (Nat × Reading)} (reads : Composes P x) {next : Nat × Reading → Except Fault (β × Reading)}
    (follows : ∀ {y : Nat × Reading}, Heralds P y.2.tokens → Composes P (next y)) :
    Composes P (if isLeftOut then pure (r.leftOut rest) >>= next else x >>= next) :=
  .ite (follows h) (reads.bind fun _ h => follows h)

/-- Behind the first part a comma stands in front of others. -/
theorem comma_composes (yaml : P .yaml) {β : Type} (isFirst : Bool) {tokens : List Token}
    {next : List Token → Except Fault (β × Reading)}
    (follows : ∀ {tokens : List Token}, Heralds P tokens → Composes P (next tokens)) :
    Heralds P tokens → Composes P (if isFirst then pure tokens >>= next
      else
        match tokens with
        | .comma :: rest => pure rest >>= next
        | tokens => throw (unexpected tokens) >>= next) := by
  intro h
  refine .ite (follows h) ?_
  split
  · exact follows h.tail
  · exact .error (h.unexpected yaml)

/-- What the readers of parts of a document do with so much fuel. -/
structure Composing (P : Fault → Prop) (handles : Handles) (fuel : Nat) : Prop where
  node : ∀ {r : Reading} (inBlock indentless : Bool), Heralds P r.tokens →
    Composes P (readNode handles inBlock indentless fuel r)
  items : ∀ {r : Reading} (indentless : Bool), Heralds P r.tokens → Composes P (readItems handles indentless fuel r)
  entries : ∀ {r : Reading}, Heralds P r.tokens → Composes P (readEntries handles fuel r)
  entryValue : ∀ {r : Reading}, Heralds P r.tokens → Composes P (readEntryValue handles fuel r)
  flowItems : ∀ {r : Reading} (isFirst : Bool), Heralds P r.tokens →
    Composes P (readFlowItems handles isFirst fuel r)
  flowEntries : ∀ {r : Reading} (isFirst : Bool), Heralds P r.tokens →
    Composes P (readFlowEntries handles isFirst fuel r)
  flowValue : ∀ {r : Reading}, Heralds P r.tokens → Composes P (readFlowValue handles fuel r)

section Step

variable {handles : Handles} {fuel : Nat} {r : Reading}

theorem readNode_composes (yaml : P .yaml) (ih : Composing P handles fuel) (inBlock indentless : Bool)
    (h : Heralds P r.tokens) : Composes P (readNode handles inBlock indentless (fuel + 1) r) := by
  rw [readNode]
  split
  · next e =>
    split
    · exact .ok (h.behind e)
    · exact .error yaml
  · refine h.takeProperties.bind ?_
    rintro ⟨properties, tokens⟩ h
    refine (properties.tagName_ends yaml handles).bind fun name _ => ?_
    have empty {tag : Tag} : Composes P (if properties.anchor.isSome || name.isSome then
        r.start properties.anchor (.scalar tag []) tokens else .error .yaml) :=
      .ite (r.start_composes yaml _ _ h) (.error yaml)
    dsimp only
    split
    · exact r.start_composes yaml _ _ h.tail
    · exact r.held_composes yaml _ _ h.tail (ih.flowItems true) _
    · exact r.held_composes yaml _ _ h.tail (ih.flowEntries true) _
    · exact .ite (r.held_composes yaml _ _ h (ih.items true) _) empty
    · exact .ite (r.held_composes yaml _ _ h.tail (ih.items false) _) empty
    · exact .ite (r.held_composes yaml _ _ h.tail ih.entries _) empty
    · exact .error (h _ List.mem_cons_self)
    · exact empty

theorem readItems_composes (yaml : P .yaml) (ih : Composing P handles fuel) (indentless : Bool)
    (h : Heralds P r.tokens) : Composes P (readItems handles indentless (fuel + 1) r) := by
  rw [readItems]
  split
  · next e =>
    have rest := h.behind e
    refine r.part_composes _ rest (ih.node true false rest) fun h => ?_
    exact (ih.items indentless h).bind fun _ h => .ok h
  · next e =>
    refine .ok ?_
    dsimp only
    split
    · exact h
    · exact h.behind e
  · exact .ite (.ok h) (.error (h.unexpected yaml))

theorem readEntries_composes (yaml : P .yaml) (ih : Composing P handles fuel) (h : Heralds P r.tokens) :
    Composes P (readEntries handles (fuel + 1) r) := by
  rw [readEntries]
  split
  · next e =>
    have rest := h.behind e
    refine r.part_composes _ rest (ih.node true true rest) fun h => ?_
    exact (ih.entryValue h).bind fun _ h => (ih.entries h).bind fun _ h => .ok h
  · next e => exact .ok (h.behind e)
  · exact .error (h.unexpected yaml)

theorem readEntryValue_composes (ih : Composing P handles fuel) (h : Heralds P r.tokens) :
    Composes P (readEntryValue handles (fuel + 1) r) := by
  rw [readEntryValue]
  split
  · next e => exact .ite (.ok (h.behind e)) (ih.node true true (h.behind e))
  · exact .ok h

theorem readFlowItems_composes (yaml : P .yaml) (ih : Composing P handles fuel) (isFirst : Bool)
    (h : Heralds P r.tokens) : Composes P (readFlowItems handles isFirst (fuel + 1) r) := by
  rw [readFlowItems]
  split
  · next e => exact .ok (h.behind e)
  · refine comma_composes yaml isFirst (fun h => ?_) h
    beta_reduce
    split
    · exact .ok h.tail
    · refine Reading.part_composes _ _ h.tail (ih.node false false h.tail) fun h => ?_
      refine (ih.flowValue h).bind ?_
      rintro ⟨v, r⟩ (h : Heralds P r.tokens)
      exact Ends.bind (ih.flowItems false h) fun _ h => .ok h
    · exact (ih.node false false h).bind fun _ h => (ih.flowItems false h).bind fun _ h => .ok h

theorem readFlowEntries_composes (yaml : P .yaml) (ih : Composing P handles fuel) (isFirst : Bool)
    (h : Heralds P r.tokens) : Composes P (readFlowEntries handles isFirst (fuel + 1) r) := by
  rw [readFlowEntries]
  split
  · next e => exact .ok (h.behind e)
  · refine comma_composes yaml isFirst (fun h => ?_) h
    beta_reduce
    split
    · exact .ok h.tail
    · refine Reading.part_composes _ _ h.tail (ih.node false false h.tail) fun h => ?_
      exact (ih.flowValue h).bind fun _ h => (ih.flowEntries false h).bind fun _ h => .ok h
    · refine (ih.node false false h).bind ?_
      rintro ⟨k, r⟩ (h : Heralds P r.tokens)
      exact Ends.bind (ih.flowEntries false h) fun _ h => .ok h

theorem readFlowValue_composes (ih : Composing P handles fuel) (h : Heralds P r.tokens) :
    Composes P (readFlowValue handles (fuel + 1) r) := by
  rw [readFlowValue]
  split
  · next e => exact .ite (.ok (h.behind e)) (ih.node false false (h.behind e))
  · exact .ok h

end Step

theorem composing (yaml : P .yaml) (handles : Handles) (fuel : Nat) : Composing P handles fuel := by
  induction fuel with
  | zero =>
    constructor
    all_goals
      intros
      first
        | rw [readNode]
        | rw [readItems]
        | rw [readEntries]
        | rw [readEntryValue]
        | rw [readFlowItems]
        | rw [readFlowEntries]
        | rw [readFlowValue]
      exact .error (Heralds.unexpected ‹_› yaml)
  | succ fuel ih =>
    exact
      { node := readNode_composes yaml ih
        items := readItems_composes yaml ih
        entries := readEntries_composes yaml ih
        entryValue := readEntryValue_composes ih
        flowItems := readFlowItems_composes yaml ih
        flowEntries := readFlowEntries_composes yaml ih
        flowValue := readFlowValue_composes ih }

/-! ## Documents -/

theorem readContent_ends (yaml : P .yaml) (handles : Handles) (isExplicit : Bool) {tokens : List Token}
    (h : Heralds P tokens) : Ends P (fun r => Heralds P r.2) (readContent handles isExplicit tokens) := by
  unfold readContent
  exact .ite (.ok h) (((composing yaml handles _).node true false h).bind fun _ h => .ok h)

theorem finish_ends (yaml : P .yaml) {tokens : List Token} (h : Heralds P tokens) :
    Ends P (fun _ => True) (finish tokens) := by
  have behind := h.dropDocumentEnds
  unfold finish
  split
  · exact .ok trivial
  · exact (behind.readDirectives yaml false []).bind fun _ h => .error (h.unexpected yaml)

/-- What keeps tokens from being a document is what one of them tells of, or it is wrong syntax. -/
theorem readDocument_ends (yaml : P .yaml) {tokens : List Token} (h : Heralds P tokens) :
    Ends P (fun _ => True) (readDocument tokens) := by
  have whole (handles : Handles) (isExplicit : Bool) {tokens : List Token} (h : Heralds P tokens) :
      Ends P (fun _ => True)
        (readContent handles isExplicit tokens >>= fun r => finish r.2 >>= fun _ => .ok (some r.1)) :=
    (readContent_ends yaml handles isExplicit h).bind fun _ h => (finish_ends yaml h).bind fun _ _ => .ok trivial
  have explicit : Ends P (fun _ => True) (readDocument.explicit tokens) := by
    unfold readDocument.explicit
    refine (h.readDirectives yaml false []).bind ?_
    rintro ⟨declared, tokens⟩ h
    dsimp only
    split
    · exact whole _ true h.tail
    · exact .error (h.unexpected yaml)
  unfold readDocument
  split
  · exact .ok trivial
  · exact explicit
  · exact explicit
  · exact explicit
  · exact explicit
  · exact whole _ false h

end ZincModel.Yaml
