import ZincModel.Proofs.Yaml.Nodes

/-!
# From the tokens of an outline to a document

The tokens of an outline are read as a node that shows the value (`ReadsNode`), if those of its parts are read so
(`readsNode_sequence`, `readsNode_mapping`). The tokens of a whole text are read as a document that shows the value
(`readDocument_eq`).
-/

namespace ZincModel.Yaml

section Outline

variable {anchors : Anchors} {shared : Nat → Value} {met met' : Met}

theorem anchorTokens_eq (anchors : Anchors) (number : Option Nat) :
    anchorTokens anchors number = ((anchorOf anchors number).map Token.anchor).toList := by
  unfold anchorTokens
  cases anchorOf anchors number <;> rfl

/-- The first token of an outline goes on with a node. -/
theorem Outline.exists_tokens (anchors : Anchors) (o : Outline) (isEntry isMark : Bool) :
    ∃ t toks, o.tokens anchors isEntry isMark = t :: toks ∧ t ≠ .key ∧ t ≠ .value ∧ t ≠ .blockEnd ∧
      (isEntry = false → t ≠ .item) := by
  have behind (number : Option Nat) {toks : List Token}
      (h : ∃ t rest, toks = t :: rest ∧ t ≠ .key ∧ t ≠ .value ∧ t ≠ .blockEnd ∧ (isEntry = false → t ≠ .item)) :
      ∃ t rest, anchorTokens anchors number ++ toks = t :: rest ∧ t ≠ .key ∧ t ≠ .value ∧ t ≠ .blockEnd ∧
        (isEntry = false → t ≠ .item) := by
    unfold anchorTokens
    split
    · exact ⟨_, _, rfl, by simp⟩
    · exact h
  match o with
  | .scalar number tag s => exact behind number ⟨_, _, rfl, by simp⟩
  | .alias n => exact ⟨_, _, rfl, by simp⟩
  | .mapping number tag entries =>
    refine behind number ?_
    split_ifs
    · exact ⟨_, _, rfl, by simp⟩
    · exact ⟨_, _, rfl, by simp⟩
  | .sequence number tag items =>
    refine behind number ?_
    split_ifs with empty flat
    · exact ⟨_, _, rfl, by simp⟩
    · cases items with
      | nil => exact absurd rfl empty
      | cons item rest =>
        refine ⟨_, _, rfl, by simp, by simp, by simp, fun e => ?_⟩
        rw [e] at flat
        cases flat
    · exact ⟨_, _, rfl, by simp⟩

/-- The tokens of the outline are read as a node that shows the value. -/
def ReadsNode (anchors : Anchors) (shared : Nat → Value) (v : Value) (o : Outline) (met met' : Met) : Prop :=
  ∀ (isEntry isMark : Bool) (fuel : Nat) (r : Reading) (rest : List Token),
    2 * (o.tokens anchors isEntry isMark).length + 2 ≤ fuel → r.tokens = o.tokens anchors isEntry isMark ++ rest →
    (isEntry = true → rest.head? ≠ some .item) → r.Meets anchors met →
    ∃ n r', readNode commonHandles true isEntry fuel r = .ok (n, r') ∧ r'.tokens = rest ∧
      r.Grows anchors shared r' met met' fun g place => Shown shared g place v n

theorem readsNode_scalar {v : Value} {tag : Tag} {s : List Char} (form : scalarForm v = some (tag, s))
    (typed : IsTyped tag s) : ReadsNode anchors shared v (.scalar none tag s) met met := by
  intro isEntry isMark fuel r rest enough here _ meets
  have kind : (if styleOf false tag s == .plain then tagOfPlain s else .str) = tag := by
    by_cases plain : styleOf false tag s = .plain
    · simp [plain, (styleOf_plain plain).1]
    · rcases typed with rfl | ⟨kind, allowed, -⟩
      · simp [plain]
      · exact absurd (styleOf_eq_plain kind allowed) plain
  obtain ⟨fuel, rfl⟩ : ∃ n, fuel = n + 1 := ⟨fuel - 1, by omega⟩
  have read : readNode commonHandles true isEntry (fuel + 1) r = _ := readNode_scalar here
  rw [kind] at read
  exact ⟨_, _, read, rfl, (Reading.Grows.add meets _ rest).imp fun node => .content (.scalar form node)⟩

theorem readsNode_reference {m : Nat} (known : m ∈ met) (named : (anchors.lookup m).isSome) :
    ReadsNode anchors shared (shared m) (.alias m) met met := by
  intro isEntry isMark fuel r rest enough here _ meets
  obtain ⟨name, word⟩ := Option.isSome_iff_exists.1 named
  obtain ⟨n, found⟩ := Option.isSome_iff_exists.1 ((meets m name word).2 known)
  obtain ⟨fuel, rfl⟩ : ∃ n, fuel = n + 1 := ⟨fuel - 1, by omega⟩
  have here : r.tokens = .alias name :: rest := by simpa [Outline.tokens, anchorOf, word] using here
  refine ⟨n, _, readNode_reference here found, rfl, ?_⟩
  have same : r.Grows anchors shared { r with tokens := rest } met met _ := .refl meets rest
  exact ⟨same.ext, same.meets, fun kept => ⟨.reference (kept.places m name n word found), (same.shown kept).2⟩⟩

/-- Whatever sound outline the value has, its tokens are read as a node that shows the value. -/
def IsReadable (anchors : Anchors) (shared : Nat → Value) (v : Value) : Prop :=
  ∀ {o : Outline} {met met' : Met} {k : Nat} {flush : Bool}, Outline.of v met = .ok (o, met') →
    Sound anchors k flush o → ReadsNode anchors shared v o met met'

/-- The tokens behind the items of a sequence, and those that are left then. -/
inductive EndsItems : (indentless : Bool) → (tokens left : List Token) → Prop
  | flush {rest : List Token} : rest.head? ≠ some .item → EndsItems true rest rest
  | block {rest : List Token} : EndsItems false (.blockEnd :: rest) rest

theorem readItems_end {indentless : Bool} {fuel : Nat} {r : Reading} {left : List Token}
    (ends : EndsItems indentless r.tokens left) (positive : 0 < fuel) :
    readItems commonHandles indentless fuel r = .ok ([], { r with tokens := left }) := by
  obtain ⟨fuel, rfl⟩ : ∃ n, fuel = n + 1 := ⟨fuel - 1, by omega⟩
  rcases r with ⟨tokens, known, graph⟩
  cases ends with
  | block => rfl
  | flush other =>
    dsimp only at other
    rw [readItems]
    split
    · next e =>
      rw [show tokens = _ from e] at other
      exact absurd rfl other
    · rfl
    · rfl

theorem readItems_item (o : Outline) {indentless : Bool} {fuel : Nat} {r : Reading} {rest : List Token}
    (here : r.tokens = .item :: (o.tokens anchors false true ++ rest)) :
    readItems commonHandles indentless (fuel + 1) r = (do
      let (n, r) ← readNode commonHandles true false fuel { r with tokens := o.tokens anchors false true ++ rest }
      let (more, r) ← readItems commonHandles indentless fuel r
      return (n :: more, r)) := by
  obtain ⟨t, toks, first, notKey, notValue, notEnd, notItem⟩ := o.exists_tokens anchors false true
  have there : (if indentless then endsBlockPart (o.tokens anchors false true ++ rest)
      else endsItem (o.tokens anchors false true ++ rest)) = false := by
    rw [first]
    cases t <;> simp_all [endsBlockPart, endsItem]
  simp only [readItems, here, there, Bool.false_eq_true, if_false]

theorem readItems_of {items : List Value} (h : ∀ v ∈ items, IsReadable anchors shared v) {os : List Outline}
    (outlines : outlinesOf items met = .ok (os, met')) {k : Nat} (sound : ∀ o ∈ os, Sound anchors k false o)
    {indentless : Bool} {fuel : Nat} {r : Reading} {rest left : List Token}
    (enough : 2 * (itemTokens anchors os).length + 1 ≤ fuel) (here : r.tokens = itemTokens anchors os ++ rest)
    (ends : EndsItems indentless rest left) (meets : r.Meets anchors met) :
    ∃ parts r', readItems commonHandles indentless fuel r = .ok (parts, r') ∧ r'.tokens = left ∧
      r.Grows anchors shared r' met met' fun g place => List.Forall₂ (Shown shared g place) items parts := by
  induction items generalizing os met fuel r with
  | nil =>
    cases outlines
    rw [itemTokens, List.nil_append] at here
    exact ⟨[], _, readItems_end (here ▸ ends) (by omega), rfl, (Reading.Grows.refl meets left).imp fun _ => .nil⟩
  | cons v items ih =>
    obtain ⟨hv, hs⟩ := List.forall_mem_cons.1 h
    rw [outlinesOf] at outlines
    obtain ⟨⟨o, met₁⟩, outline, outlines⟩ := Except.bind_eq_ok.1 outlines
    obtain ⟨⟨os', met₂⟩, outlines, e⟩ := Except.bind_eq_ok.1 outlines
    cases e
    obtain ⟨soundHere, soundOthers⟩ := List.forall_mem_cons.1 sound
    have length : (itemTokens anchors (o :: os')).length =
        (o.tokens anchors false true).length + (itemTokens anchors os').length + 1 := by
      simp [itemTokens]
    obtain ⟨fuel, rfl⟩ : ∃ n, fuel = n + 1 := ⟨fuel - 1, by omega⟩
    have here : r.tokens = .item :: (o.tokens anchors false true ++ (itemTokens anchors os' ++ rest)) := by
      simpa [itemTokens] using here
    obtain ⟨n, r₁, read, tokens₁, grows⟩ := hv outline soundHere false true fuel
      { r with tokens := o.tokens anchors false true ++ (itemTokens anchors os' ++ rest) }
      (itemTokens anchors os' ++ rest) (by omega) rfl (by simp) meets
    obtain ⟨parts, r₂, reads, tokens₂, grows'⟩ := ih hs outlines soundOthers
      (by omega : 2 * (itemTokens anchors os').length + 1 ≤ fuel) tokens₁ grows.meets
    refine ⟨n :: parts, r₂, ?_, tokens₂, ?_⟩
    · rw [readItems_item o here, read]
      simp only [Except.ok_bind, reads, Except.pure_eq]
    · exact (grows.of_tokens.trans grows').imp fun shown => .cons shown.1 shown.2

theorem readEntries_entry (k v : Outline) {isMark : Bool} {fuel : Nat} {r : Reading} {rest : List Token}
    (here : r.tokens = .key :: (k.tokens anchors true true ++ .value :: (v.tokens anchors true isMark ++ rest))) :
    readEntries commonHandles (fuel + 2) r = (do
      let (n, r) ← readNode commonHandles true true (fuel + 1)
        { r with tokens := k.tokens anchors true true ++ .value :: (v.tokens anchors true isMark ++ rest) }
      let (n', r) ← readEntryValue commonHandles (fuel + 1) r
      let (more, r) ← readEntries commonHandles (fuel + 1) r
      return ((n, n') :: more, r)) := by
  obtain ⟨t, toks, first, notKey, notValue, notEnd, -⟩ := k.exists_tokens anchors true true
  have there : endsEntryPart (k.tokens anchors true true ++ .value :: (v.tokens anchors true isMark ++ rest)) =
      false := by
    rw [first]
    cases t <;> simp_all [endsEntryPart]
  simp only [readEntries, here, there, Bool.false_eq_true, if_false]

theorem readEntryValue_eq (v : Outline) {isMark : Bool} {fuel : Nat} {r : Reading} {rest : List Token}
    (here : r.tokens = .value :: (v.tokens anchors true isMark ++ rest)) :
    readEntryValue commonHandles (fuel + 1) r =
      readNode commonHandles true true fuel { r with tokens := v.tokens anchors true isMark ++ rest } := by
  obtain ⟨t, toks, first, notKey, notValue, notEnd, -⟩ := v.exists_tokens anchors true isMark
  have there : endsEntryPart (v.tokens anchors true isMark ++ rest) = false := by
    rw [first]
    cases t <;> simp_all [endsEntryPart]
  simp only [readEntryValue, here, there, Bool.false_eq_true, if_false]

theorem readEntries_of {entries : List (Value × Value)}
    (text : ∀ e ∈ entries, ∃ s, e.1 = .str s) (h : ∀ e ∈ entries, IsReadable anchors shared e.2)
    {os : List (Outline × Outline)} (outlines : entryOutlinesOf entries met = .ok (os, met')) {k : Nat}
    (sound : ∀ e ∈ os, Sound anchors k (isShortKey anchors e.1) e.2) {fuel : Nat} {r : Reading} {rest : List Token}
    (enough : 2 * (entryTokens anchors os).length + 1 ≤ fuel)
    (here : r.tokens = entryTokens anchors os ++ .blockEnd :: rest) (meets : r.Meets anchors met) :
    ∃ parts r', readEntries commonHandles fuel r = .ok (parts, r') ∧ r'.tokens = rest ∧
      r.Grows anchors shared r' met met' fun g place =>
        List.Forall₂ (Shown shared g place) (entries.map Prod.fst) (parts.map Prod.fst) ∧
          List.Forall₂ (Shown shared g place) (entries.map Prod.snd) (parts.map Prod.snd) := by
  induction entries generalizing os met fuel r with
  | nil =>
    cases outlines
    obtain ⟨fuel, rfl⟩ : ∃ n, fuel = n + 1 := ⟨fuel - 1, by omega⟩
    rw [entryTokens, List.nil_append] at here
    refine ⟨[], { r with tokens := rest }, ?_, rfl, (Reading.Grows.refl meets rest).imp fun _ => ⟨.nil, .nil⟩⟩
    simp only [readEntries, here]
  | cons e entries ih =>
    obtain ⟨key, v⟩ := e
    obtain ⟨⟨s, isText⟩, texts⟩ := List.forall_mem_cons.1 text
    cases isText
    obtain ⟨hv, hs⟩ := List.forall_mem_cons.1 h
    rw [entryOutlinesOf] at outlines
    obtain ⟨⟨ko, met₁⟩, keyOutline, behindKey⟩ := Except.bind_eq_ok.1 outlines
    obtain ⟨⟨vo, met₂⟩, valueOutline, behindValue⟩ := Except.bind_eq_ok.1 behindKey
    obtain ⟨⟨os', met₃⟩, others, e⟩ := Except.bind_eq_ok.1 behindValue
    cases e
    obtain ⟨soundHere, soundOthers⟩ := List.forall_mem_cons.1 sound
    obtain ⟨rfl, rfl⟩ : Outline.scalar none .str s.toList = ko ∧ met = met₁ := by
      rw [Outline.of] at keyOutline
      cases keyOutline
      exact ⟨rfl, rfl⟩
    have hk : ReadsNode anchors shared (.str s) (.scalar none .str s.toList) met met :=
      readsNode_scalar rfl (.inl rfl)
    generalize Outline.scalar none .str s.toList = ko at hk here enough soundHere
    let isMark := !isShortKey anchors ko
    have length : (entryTokens anchors ((ko, vo) :: os')).length = (ko.tokens anchors true true).length +
        (vo.tokens anchors true isMark).length + (entryTokens anchors os').length + 2 := by
      simp [entryTokens, isMark]
      omega
    obtain ⟨fuel, rfl⟩ : ∃ n, fuel = n + 2 := ⟨fuel - 2, by omega⟩
    let behind := entryTokens anchors os' ++ .blockEnd :: rest
    have here : r.tokens = .key :: (ko.tokens anchors true true ++
        .value :: (vo.tokens anchors true isMark ++ behind)) := by
      simpa [entryTokens, behind, isMark] using here
    have notItem : behind.head? ≠ some .item := by
      cases os' with
      | nil => simp [behind, entryTokens]
      | cons e os' => simp [behind, entryTokens]
    obtain ⟨n, r₁, read₁, tokens₁, grows₁⟩ := hk true true (fuel + 1)
      { r with tokens := ko.tokens anchors true true ++ .value :: (vo.tokens anchors true isMark ++ behind) }
      (.value :: (vo.tokens anchors true isMark ++ behind)) (by omega) rfl (by simp) meets
    obtain ⟨n', r₂, read₂, tokens₂, grows₂⟩ := hv valueOutline soundHere true isMark fuel
      { r₁ with tokens := vo.tokens anchors true isMark ++ behind } behind (by omega) rfl (fun _ => notItem)
      grows₁.meets
    obtain ⟨parts, r₃, reads, tokens₃, grows₃⟩ := ih texts hs others soundOthers
      (by omega : 2 * (entryTokens anchors os').length + 1 ≤ fuel + 1) tokens₂ grows₂.meets
    refine ⟨(n, n') :: parts, r₃, ?_, tokens₃, ?_⟩
    · rw [readEntries_entry ko vo here, read₁, Except.ok_bind]
      dsimp only
      rw [readEntryValue_eq vo tokens₁, read₂]
      simp only [Except.ok_bind, reads, Except.pure_eq]
    · exact (grows₁.of_tokens.trans (grows₂.of_tokens.trans grows₃)).imp fun shown =>
        ⟨.cons shown.1 shown.2.2.1, .cons shown.2.1 shown.2.2.2⟩

/-! ## Containers -/

/-- Either an alias stands for the value, or it is met for the first time. -/
theorem once_eq_ok {number : Option Nat} {whole : Met → Except Fault (Outline × Met)} {o : Outline}
    (h : Outline.once number whole met = .ok (o, met')) :
    (∃ m, number = some m ∧ m ∈ met ∧ o = .alias m ∧ met' = met) ∨
      (∀ m, number = some m → m ∉ met) ∧ whole (number.toList ++ met) = .ok (o, met') := by
  cases number with
  | none => exact .inr ⟨by simp, h⟩
  | some m =>
    by_cases known : m ∈ met
    · rw [Outline.once, if_pos (by simpa using known)] at h
      cases h
      exact .inl ⟨m, rfl, known, rfl, rfl⟩
    · rw [Outline.once, if_neg (by simpa using known)] at h
      exact .inr ⟨fun m' e => by cases e; exact known, h⟩

variable {number : Option Nat}

theorem outlinesOf_eq_nil {items : List Value} (h : outlinesOf items met = .ok ([], met')) :
    items = [] ∧ met' = met := by
  cases items with
  | nil =>
    cases h
    exact ⟨rfl, rfl⟩
  | cons v items =>
    rw [outlinesOf] at h
    obtain ⟨_, -, h⟩ := Except.bind_eq_ok.1 h
    obtain ⟨_, -, h⟩ := Except.bind_eq_ok.1 h
    cases h

theorem entryOutlinesOf_eq_nil {entries : List (Value × Value)} (h : entryOutlinesOf entries met = .ok ([], met')) :
    entries = [] ∧ met' = met := by
  cases entries with
  | nil =>
    cases h
    exact ⟨rfl, rfl⟩
  | cons e entries =>
    rw [entryOutlinesOf] at h
    obtain ⟨_, -, h⟩ := Except.bind_eq_ok.1 h
    obtain ⟨_, -, h⟩ := Except.bind_eq_ok.1 h
    obtain ⟨_, -, h⟩ := Except.bind_eq_ok.1 h
    cases h

/-- A container is read as a node that shows it, if what it holds is read so. -/
theorem reads_hold {α : Type} {v : Value} {indentless : Bool} {fuel : Nat} {r r' : Reading} {node : List α → Node}
    {tokens rest : List Token} {read : Reading → Except Fault (List α × Reading)} {parts : List α}
    {P : Graph → (Nat → Option Nat) → Prop} (meets : r.Meets anchors met) (fresh : ∀ m, number = some m → m ∉ met)
    (coherent : ∀ m, number = some m → shared m = v)
    (here : readNode commonHandles true indentless fuel r = r.hold (anchorOf anchors number) node tokens read)
    (reads : read (r.started (anchorOf anchors number) (node []) tokens) = .ok (parts, r')) (left : r'.tokens = rest)
    (grows : (r.started (anchorOf anchors number) (node []) tokens).Grows anchors shared r' (number.toList ++ met) met'
      P)
    (content : ∀ {g place}, g.get? r.graph.size = some (node parts) → P g place →
      Content g (Shown shared g place) v r.graph.size) :
    ∃ n r', readNode commonHandles true indentless fuel r = .ok (n, r') ∧ r'.tokens = rest ∧
      r.Grows anchors shared r' met met' fun g place => Shown shared g place v n :=
  ⟨_, _, here.trans (Reading.hold_eq (meets.isTaken fresh) reads), left, .hold meets fresh coherent grows content⟩

theorem readsNode_sequence (proper : anchors.Proper) {l : Option Label} {items : List Value}
    (h : ∀ v ∈ items, IsReadable anchors shared v) {os : List Outline}
    (fresh : ∀ m, number = some m → m ∉ met) (coherent : ∀ m, number = some m → shared m = .list l items)
    (outlines : outlinesOf items (number.toList ++ met) = .ok (os, met')) {k : Nat}
    (sound : ∀ o ∈ os, Sound anchors k false o) :
    ReadsNode anchors shared (.list l items) (.sequence number .seq os) met met' := by
  intro isEntry isMark fuel r rest enough here follows meets
  rw [Outline.tokens, anchorTokens_eq] at here
  obtain ⟨fuel, rfl⟩ : ∃ n, fuel = n + 2 := ⟨fuel - 2, by omega⟩
  have started (tokens : List Token) := meets.started proper number (.sequence .seq []) tokens
  have readItems (tokens : List Token) {indentless : Bool} {rest' : List Token}
      (long : (itemTokens anchors os).length ≤
        (Outline.tokens anchors isEntry isMark (.sequence number .seq os)).length)
      (there : tokens = itemTokens anchors os ++ rest') (ends : EndsItems indentless rest' rest) :=
    readItems_of (r := r.started (anchorOf anchors number) (.sequence .seq []) tokens) h outlines sound
      (by omega : 2 * (itemTokens anchors os).length + 1 ≤ fuel + 1) there ends (started tokens)
  by_cases empty : os.isEmpty = true
  · obtain rfl : os = [] := by simpa using empty
    obtain ⟨rfl, rfl⟩ := outlinesOf_eq_nil outlines
    rw [if_pos empty] at here
    let r' := r.started (anchorOf anchors number) (.sequence .seq []) (.flowSequenceEnd :: rest)
    have reads : readFlowItems commonHandles true (fuel + 1) r' = .ok ([], { r' with tokens := rest }) := by
      simp [readFlowItems, r', Reading.started]
    exact reads_hold meets fresh coherent (readNode_flowSequence (by simpa using here)) reads rfl
      ((Reading.Grows.refl (started _) rest).imp fun _ => .nil) .list
  · rw [if_neg empty] at here
    by_cases flat : (isEntry && !(isMark && (anchorOf anchors number).isNone)) = true
    · obtain rfl : isEntry = true := (Bool.and_eq_true_iff.1 flat).1
      rw [if_pos flat] at here
      obtain ⟨parts, r', reads, left, grows⟩ := readItems (itemTokens anchors os ++ rest)
        (by rw [Outline.tokens, if_neg empty, if_pos flat]; simp) rfl (.flush (follows rfl))
      obtain ⟨o, os, rfl⟩ := List.exists_cons_of_ne_nil (l := os) (by simpa using empty)
      exact reads_hold meets fresh coherent (readNode_flush (by simpa [itemTokens] using here)) reads left grows .list
    · rw [if_neg flat] at here
      obtain ⟨parts, r', reads, left, grows⟩ := readItems (itemTokens anchors os ++ .blockEnd :: rest)
        (by rw [Outline.tokens, if_neg empty, if_neg flat]; simp; omega) rfl .block
      exact reads_hold meets fresh coherent (readNode_blockSequence (by simpa using here)) reads left grows .list

theorem readsNode_mapping (proper : anchors.Proper) {l : Option Label} {entries : List (Value × Value)}
    (object : Value.IsObject entries) (h : ∀ e ∈ entries, IsReadable anchors shared e.2)
    {os : List (Outline × Outline)} (fresh : ∀ m, number = some m → m ∉ met)
    (coherent : ∀ m, number = some m → shared m = .dict l entries)
    (outlines : entryOutlinesOf entries (number.toList ++ met) = .ok (os, met')) {k : Nat}
    (sound : ∀ e ∈ os, Sound anchors k (isShortKey anchors e.1) e.2) :
    ReadsNode anchors shared (.dict l entries) (.mapping number .map os) met met' := by
  intro isEntry isMark fuel r rest enough here follows meets
  rw [Outline.tokens, anchorTokens_eq] at here
  obtain ⟨fuel, rfl⟩ : ∃ n, fuel = n + 2 := ⟨fuel - 2, by omega⟩
  have started (tokens : List Token) := meets.started proper number (.mapping .map []) tokens
  have content {g : Graph} {place : Nat → Option Nat} {n : Nat} {parts : List (Nat × Nat)}
      (node : g.get? n = some (.mapping .map parts))
      (shown : List.Forall₂ (Shown shared g place) (entries.map Prod.fst) (parts.map Prod.fst) ∧
        List.Forall₂ (Shown shared g place) (entries.map Prod.snd) (parts.map Prod.snd)) :
      Content g (Shown shared g place) (.dict l entries) n := .dict object node shown.1 shown.2
  by_cases empty : os.isEmpty = true
  · obtain rfl : os = [] := by simpa using empty
    obtain ⟨rfl, rfl⟩ := entryOutlinesOf_eq_nil outlines
    rw [if_pos empty] at here
    let r' := r.started (anchorOf anchors number) (.mapping .map []) (.flowMappingEnd :: rest)
    have reads : readFlowEntries commonHandles true (fuel + 1) r' = .ok ([], { r' with tokens := rest }) := by
      simp [readFlowEntries, r', Reading.started]
    exact reads_hold meets fresh coherent (readNode_flowMapping (by simpa using here)) reads rfl
      ((Reading.Grows.refl (started _) rest).imp fun _ => ⟨.nil, .nil⟩) content
  · rw [if_neg empty] at here
    have long : (entryTokens anchors os).length ≤
        (Outline.tokens anchors isEntry isMark (.mapping number .map os)).length := by
      rw [Outline.tokens, if_neg empty]
      simp
      omega
    obtain ⟨parts, r', reads, left, grows⟩ := readEntries_of
      (r := r.started (anchorOf anchors number) (.mapping .map []) (entryTokens anchors os ++ .blockEnd :: rest))
      object.text h outlines sound (by omega : 2 * (entryTokens anchors os).length + 1 ≤ fuel + 1) rfl (started _)
    exact reads_hold meets fresh coherent (readNode_blockMapping (by simpa using here)) reads left grows content

/-! ## The whole document -/

/-- The document shows the value: its nodes show what they have the content of, and the root shows the value. -/
def Document.Shows (d : Document) (v : Value) : Prop :=
  ∃ S : Value → Nat → Prop, S v d.root ∧ ∀ v n, S v n → Content d.graph S v n

/-- The tokens of a dictionary are read as a document that shows it. -/
theorem readDocument_eq (proper : anchors.Proper) {entries : List (Value × Value)} (object : Value.IsObject entries)
    (h : ∀ e ∈ entries, IsReadable anchors shared e.2) {os : List (Outline × Outline)}
    (outlines : entryOutlinesOf entries [] = .ok (os, met')) {k : Nat}
    (sound : ∀ e ∈ os, Sound anchors k (isShortKey anchors e.1) e.2) (nonempty : os ≠ []) :
    ∃ d, readDocument (.blockMapping :: (entryTokens anchors os ++ [.blockEnd, .streamEnd])) = .ok (some d) ∧
      d.Shows (.ofEntries entries) := by
  let tokens := Outline.tokens anchors false true (.mapping none .map os)
  have whole : .blockMapping :: (entryTokens anchors os ++ [.blockEnd, .streamEnd]) = tokens ++ [.streamEnd] := by
    simp [tokens, Outline.tokens, anchorTokens, anchorOf, nonempty]
  let r : Reading := ⟨tokens ++ [.streamEnd], [], .empty⟩
  have meets : r.Meets anchors [] := by simp [Reading.Meets, r]
  have fresh : ∀ m, (none : Option Nat) = some m → m ∉ ([] : Met) := by simp
  obtain ⟨n, r', read, left, grows⟩ := readsNode_mapping proper object h fresh (by simp) outlines sound false true
    (3 * (tokens ++ [Token.streamEnd]).length + 3) r [.streamEnd] (by simp [tokens]; omega) rfl (by simp) meets
  -- every value that an alias stands for has been met
  let place (m : Nat) : Option Nat := (anchors.lookup m).bind fun name => r'.anchors.lookup name
  have kept : r'.Kept anchors r.graph.size r'.graph place :=
    ⟨fun _ _ _ => rfl, fun m name n word found => by simp [place, word, found]⟩
  obtain ⟨shown, behind⟩ := grows.shown kept
  refine ⟨⟨r'.graph, n⟩, ?_, Shown shared r'.graph place, shown, ?_⟩
  · have content : readContent commonHandles false (tokens ++ [.streamEnd]) = .ok (⟨r'.graph, n⟩, [.streamEnd]) := by
      simp only [readContent, Bool.false_and, Bool.false_eq_true, if_false]
      rw [read]
      simp [left]
    rw [← whole] at content
    simp only [readDocument, content, Except.ok_bind]
    rfl
  · intro v j h
    cases h with
    | content h => exact h
    | reference found =>
      obtain ⟨name, word, there⟩ := Option.bind_eq_some_iff.1 found
      have known := (grows.meets _ name word).1 (by rw [there]; rfl)
      obtain ⟨j', found', content⟩ := behind _ known (by simp) (by rw [word]; rfl)
      obtain rfl : j = j' := Option.some.inj (found.symm.trans found')
      exact content

end Outline

end ZincModel.Yaml
