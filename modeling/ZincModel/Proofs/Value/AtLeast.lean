import ZincModel.Value.Order

/-!
# The order read the other way

A value is at least another one (`Value.atLeast?`) if it is an equal or greater number, an equal or later text, a set
that holds all of the other one, or a list that goes on where the other one ends or has the greater item where they
differ first. Such a value does not come before the other one, but a value that does not come before another need not
be at least that one: a number is neither below nor above NaN, and of two sets none may hold the other. There is no
other exception (`Value.atLeast?_of_less`), also not within lists: without NaN and sets (`Value.isRanked`) both say
the same.
-/

namespace ZincModel

/-! ## Texts, rows of bytes and numbers -/

theorem lessText_swap (as bs : List Char) : (as == bs || lessText bs as) = !lessText as bs := by
  induction as generalizing bs with
  | nil => cases bs <;> rfl
  | cons a as ih =>
    cases bs with
    | nil => rfl
    | cons b bs =>
      by_cases e : a = b
      · subst e
        simpa [lessText] using ih bs
      · have apart : a.toNat ≠ b.toNat := fun h => e (Char.toNat_inj.1 h)
        have later : b.toNat < a.toNat ↔ ¬ a.toNat < b.toNat := by omega
        simp only [lessText, List.cons_beq_cons, beq_eq_false_iff_ne.2 e, if_neg e, if_neg (Ne.symm e), later,
          Bool.false_and, Bool.false_or, decide_not]

theorem lessBytes_swap (as bs : List UInt8) : (as == bs || lessBytes bs as) = !lessBytes as bs := by
  induction as generalizing bs with
  | nil => cases bs <;> rfl
  | cons a as ih =>
    cases bs with
    | nil => rfl
    | cons b bs =>
      by_cases e : a = b
      · subst e
        simpa [lessBytes] using ih bs
      · have apart : a.toNat ≠ b.toNat := fun h => e (UInt8.toNat_inj.1 h)
        have later : b < a ↔ ¬ a < b := by
          rw [UInt8.lt_iff_toNat_lt, UInt8.lt_iff_toNat_lt]
          omega
        simp only [lessBytes, List.cons_beq_cons, beq_eq_false_iff_ne.2 e, if_neg e, if_neg (Ne.symm e), later,
          Bool.false_and, Bool.false_or, decide_not]

/-- Numbers have an order unless one of them is NaN. -/
theorem Number.compare?_eq_none {x y : Number} (h : x.compare? y = none) : x = real .nan ∨ y = real .nan := by
  rcases x with _ | ⟨_⟩ | ⟨_⟩ | ⟨_⟩ <;> rcases y with _ | ⟨_⟩ | ⟨_⟩ | ⟨_⟩ <;>
    first | exact .inl rfl | exact .inr rfl | cases h

namespace Value

mutual

/-- Neither NaN nor a set stands in the value where an order would ask for it. -/
def isRanked : Value → Bool
  | float _ x => x != .nan
  | set .. => false
  | list _ items => allRanked items
  | tuple _ items => allRanked items
  | _ => true
termination_by structural x => x

def allRanked : List Value → Bool
  | [] => true
  | v :: rest => isRanked v && allRanked rest
termination_by structural x => x

end

/-- The first number is the second one or greater; `none` if one of the values is no number. -/
def numberAtLeast? (a b : Value) : Option Bool :=
  match a.asNumber?, b.asNumber? with
  | some x, some y => some ((x.compare? y).any (· != .lt))
  | _, _ => none

section Order

variable (again : Place → Place → Bool) (againAtLeast : Place → Place → Option Bool)

mutual

/-- The first value is at least the second one; `none` if they have no order. Where a loop is met `again` and
`againAtLeast` compare the container that it belongs to. -/
def atLeastIn (ea eb : Around) : Value → Value → Option Bool
  | loop m _, b =>
    match ea.find? m with
    | some p => againAtLeast p ⟨b, eb⟩
    | none => none
  | a, loop n _ =>
    match eb.find? n with
    | some p => againAtLeast ⟨a, ea⟩ p
    | none => none
  | str a, str b => some (a.toList == b.toList || lessText b.toList a.toList)
  | bytes a, bytes b => some (a == b || lessBytes b a)
  | date _ a, date _ b => some (b.ordinal ≤ a.ordinal)
  | moment _ a, moment _ b => (a.compare? b).map (· != .lt)
  | list l a, list m b => atLeastAll (ea.enter l (list l a)) (eb.enter m (list m b)) a b
  | tuple l a, tuple m b => atLeastAll (ea.enter l (tuple l a)) (eb.enter m (tuple m b)) a b
  | set _ a, set _ b => some (b.length ≤ a.length && allIn again eb ea b a)
  | a, b => numberAtLeast? a b
termination_by structural x => x

/-- Lists by the first items that are not equal, else by their length. -/
def atLeastAll (ea eb : Around) : List Value → List Value → Option Bool
  | _, [] => some true
  | [], _ :: _ => some false
  | a :: as, b :: bs => if equalIn again ea eb a b then atLeastAll ea eb as bs else atLeastIn ea eb a b
termination_by structural x => x

end

end Order

/-- The value at the first place is at least the one at the second place; at most as many loops are followed. -/
def atLeastAt : Nat → Place → Place → Option Bool
  | 0, _, _ => none
  | loops + 1, p, q => atLeastIn (equalAt loops) (atLeastAt loops) p.around q.around p.value q.value

/-- The first value is at least the second one; `none` if they have no order. -/
def atLeast? (a b : Value) : Option Bool := atLeastAt loopLimit ⟨a, []⟩ ⟨b, []⟩

/-! ## How the two comparisons end -/

/-- What comes out where the same values are asked whether the first one is at least the second one, and whether it
comes before it. Neither is so only if the values are not ranked. -/
inductive Opposed (ranked : Prop) : Option Bool → Except ShapeFault Bool → Prop
  | unordered (f : ShapeFault) : Opposed ranked none (.error f)
  | atLeast : Opposed ranked (some true) (.ok false)
  | before : Opposed ranked (some false) (.ok true)
  | neither : ¬ ranked → Opposed ranked (some false) (.ok false)

namespace Opposed

variable {ranked ranked' : Prop}

theorem mono {x : Option Bool} {y : Except ShapeFault Bool} (h : Opposed ranked x y) (le : ranked' → ranked) :
    Opposed ranked' x y := by
  cases h with
  | unordered f => exact .unordered f
  | atLeast => exact .atLeast
  | before => exact .before
  | neither h => exact .neither fun r => h (le r)

theorem of_eq_not {x y : Bool} (h : x = !y) : Opposed ranked (some x) (.ok y) := by
  subst h
  cases y
  · exact .atLeast
  · exact .before

end Opposed

theorem asNumber?_ne_nan {v : Value} (ranked : v.isRanked = true) : v.asNumber? ≠ some (.real .nan) := by
  intro h
  cases v with
  | float n x =>
    have isNaN : x = .nan := Number.real.inj (Option.some.inj h)
    subst isNaN
    cases ranked
  | _ => cases h

theorem numberAtLeast?_opposed (a b : Value) :
    Opposed (a.isRanked = true ∧ b.isRanked = true) (numberAtLeast? a b) (lessNumber a b) := by
  unfold numberAtLeast? lessNumber
  cases hx : a.asNumber? with
  | none => exact .unordered _
  | some x =>
    cases hy : b.asNumber? with
    | none => exact .unordered _
    | some y =>
      dsimp only
      cases compared : x.compare? y with
      | none =>
        refine .neither fun ranked => ?_
        rcases Number.compare?_eq_none compared with rfl | rfl
        · exact asNumber?_ne_nan ranked.1 hx
        · exact asNumber?_ne_nan ranked.2 hy
      | some o =>
        cases o
        · exact .before
        · exact .atLeast
        · exact .atLeast

/-- The value and all containers around it are ranked. -/
structure PlaceRanked (ea : Around) (v : Value) : Prop where
  value : v.isRanked = true
  around : ∀ c ∈ ea, c.2.isRanked = true

theorem allRanked_iff {items : List Value} : allRanked items = true ↔ ∀ v ∈ items, isRanked v = true := by
  induction items with
  | nil => simp [allRanked]
  | cons v items ih => simp [allRanked, ih]

/-- The container that a loop belongs to is ranked where all containers around are. -/
theorem PlaceRanked.find? {ea : Around} {v : Value} (h : PlaceRanked ea v) {n : Nat} {p : Place}
    (found : ea.find? n = some p) : PlaceRanked p.around p.value := by
  have around := h.around
  clear h
  fun_induction Around.find? n ea with
  | case1 => cases found
  | case2 =>
    cases found
    exact ⟨around _ List.mem_cons_self, fun c hc => around c (List.mem_cons_of_mem _ hc)⟩
  | case3 _ _ _ _ ih => exact ih found fun c hc => around c (List.mem_cons_of_mem _ hc)

/-- The items of a container are ranked, and so is what is around them. -/
structure RowRanked (ea : Around) (items : List Value) : Prop where
  row : ∀ v ∈ items, v.isRanked = true
  around : ∀ c ∈ ea, c.2.isRanked = true

theorem PlaceRanked.enter {ea : Around} {v : Value} (h : PlaceRanked ea v) {items : List Value}
    (row : v.isRanked = allRanked items) (label : Option Label) : RowRanked (ea.enter label v) items := by
  refine ⟨allRanked_iff.1 (row.symm.trans h.value), ?_⟩
  cases label with
  | none => exact h.around
  | some l => exact List.forall_mem_cons.2 ⟨h.value, h.around⟩

theorem RowRanked.first {ea : Around} {v : Value} {items : List Value} (h : RowRanked ea (v :: items)) :
    PlaceRanked ea v := ⟨h.row v List.mem_cons_self, h.around⟩

theorem RowRanked.rest {ea : Around} {v : Value} {items : List Value} (h : RowRanked ea (v :: items)) :
    RowRanked ea items := ⟨fun w hw => h.row w (List.mem_cons_of_mem _ hw), h.around⟩

section Opposed

variable {again : Place → Place → Bool} {againLess : Place → Place → Except ShapeFault Bool}
  {againAtLeast : Place → Place → Option Bool}

/-- If the two comparisons are opposed where loops are met, they are opposed. -/
theorem atLeastIn_opposed
    (agree : ∀ p q, Opposed (PlaceRanked p.around p.value ∧ PlaceRanked q.around q.value) (againAtLeast p q)
      (againLess p q)) :
    (∀ ea eb a b, Opposed (PlaceRanked ea a ∧ PlaceRanked eb b) (atLeastIn again againAtLeast ea eb a b)
      (lessIn again againLess ea eb a b)) ∧
    ∀ ea eb as bs, Opposed (RowRanked ea as ∧ RowRanked eb bs) (atLeastAll again againAtLeast ea eb as bs)
      (lessAll again againLess ea eb as bs) := by
  apply lessIn.mutual_induct again
  case case1 =>
    intro ea eb m isDict b p found
    simp only [atLeastIn, lessIn, found]
    exact (agree p ⟨b, eb⟩).mono fun ranked => ⟨ranked.1.find? found, ranked.2⟩
  case case3 =>
    intro ea eb a n isDict apart p found
    simp only [atLeastIn, lessIn, found]
    exact (agree ⟨a, ea⟩ p).mono fun ranked => ⟨ranked.1, ranked.2.find? found⟩
  case case2 | case4 =>
    intros
    simp only [atLeastIn, lessIn, *]
    exact .unordered _
  case case5 =>
    intro ea eb a b
    exact .of_eq_not (lessText_swap a.toList b.toList)
  case case6 =>
    intro ea eb a b
    exact .of_eq_not (lessBytes_swap a b)
  case case7 =>
    intro ea eb _ a _ b
    simp only [atLeastIn, lessIn]
    exact .of_eq_not (by rw [← decide_not, decide_eq_decide, Nat.not_lt])
  case case8 | case9 =>
    -- a date and a moment have no order
    intros
    exact .unordered _
  case case10 =>
    intro ea eb _ a _ b o compared
    simp only [atLeastIn, lessIn, compared]
    exact .of_eq_not rfl
  case case11 =>
    intro ea eb _ a _ b compared
    simp only [atLeastIn, lessIn, compared]
    exact .unordered _
  case case12 | case13 =>
    intro ea eb l a m b ih
    simp only [atLeastIn, lessIn]
    exact ih.mono fun ranked => ⟨ranked.1.enter rfl l, ranked.2.enter rfl m⟩
  case case14 =>
    intro ea eb l a m b
    have set : ¬ (PlaceRanked ea (.set l a) ∧ PlaceRanked eb (.set m b)) := fun ranked => by cases ranked.1.value
    simp only [atLeastIn, lessIn]
    by_cases fewer : a.length < b.length
    · rw [decide_eq_false (Nat.not_le.2 fewer), decide_eq_true fewer, Bool.false_and, Bool.true_and]
      cases allIn again ea eb a b
      · exact .neither set
      · exact .before
    · rw [decide_eq_true (Nat.not_lt.1 fewer), decide_eq_false fewer, Bool.false_and, Bool.true_and]
      cases allIn again eb ea b a
      · exact .neither set
      · exact .atLeast
  case case15 =>
    intro ea eb a b _ _ _ _ _ _ _ _ _ _ _
    simp only [atLeastIn, lessIn]
    exact (numberAtLeast?_opposed a b).mono fun ranked => ⟨ranked.1.value, ranked.2.value⟩
  case case16 =>
    intro as ea eb
    cases as <;> exact .atLeast
  case case17 =>
    intros
    exact .before
  case case18 =>
    intro ea eb a as b bs equal ih
    simp only [atLeastAll, lessAll, if_pos equal]
    exact ih.mono fun ranked => ⟨ranked.1.rest, ranked.2.rest⟩
  case case19 =>
    intro ea eb a as b bs differ ih
    simp only [atLeastAll, lessAll, if_neg differ]
    exact ih.mono fun ranked => ⟨ranked.1.first, ranked.2.first⟩

end Opposed

/-- The two comparisons are opposed, however many loops are followed. -/
theorem atLeastAt_opposed (loops : Nat) (p q : Place) :
    Opposed (PlaceRanked p.around p.value ∧ PlaceRanked q.around q.value) (atLeastAt loops p q)
      (lessAt loops p q) := by
  induction loops generalizing p q with
  | zero => exact .unordered _
  | succ loops ih => exact (atLeastIn_opposed ih).1 p.around q.around p.value q.value

theorem atLeast?_opposed (a b : Value) :
    Opposed (a.isRanked = true ∧ b.isRanked = true) (a.atLeast? b) (a.less b) := by
  refine (atLeastAt_opposed loopLimit ⟨a, []⟩ ⟨b, []⟩).mono fun ranked => ?_
  exact ⟨⟨ranked.1, by simp⟩, ⟨ranked.2, by simp⟩⟩

/-- A value that is at least another one does not come before it. -/
theorem less_of_atLeast? {a b : Value} (h : a.atLeast? b = some true) : a.less b = .ok false := by
  have opposed := atLeast?_opposed a b
  rw [h] at opposed
  generalize a.less b = y at opposed ⊢
  cases opposed
  rfl

/-- A value that does not come before another one, though they have an order, is at least that one, unless NaN or a
set keeps them apart. -/
theorem atLeast?_of_less {a b : Value} (ha : a.isRanked = true) (hb : b.isRanked = true)
    (h : a.less b = .ok false) : a.atLeast? b = some true := by
  have opposed := atLeast?_opposed a b
  rw [h] at opposed
  generalize a.atLeast? b = x at opposed ⊢
  cases opposed with
  | atLeast => rfl
  | neither unranked => exact absurd ⟨ha, hb⟩ unranked

/-! ## Numbers -/

section Numbers

variable {a b : Value} {x y : Number}

theorem less_numbers (ha : a.asNumber? = some x) (hb : b.asNumber? = some y) :
    a.less b = .ok (x.compare? y == some .lt) := by
  have numbers : a.less b = lessNumber a b := by
    cases a <;> cases ha <;> cases b <;> cases hb <;> rfl
  rw [numbers, lessNumber, ha, hb]

theorem atLeast?_numbers (ha : a.asNumber? = some x) (hb : b.asNumber? = some y) :
    a.atLeast? b = some ((x.compare? y).any (· != .lt)) := by
  have numbers : a.atLeast? b = numberAtLeast? a b := by
    cases a <;> cases ha <;> cases b <;> cases hb <;> rfl
  rw [numbers, numberAtLeast?, ha, hb]

/-- A number is not at least NaN, and does not come before it. -/
theorem nan_right (ha : a.asNumber? = some x) (n : Option Nat) :
    a.atLeast? (float n .nan) = some false ∧ a.less (float n .nan) = .ok false := by
  have unordered : x.compare? (.real .nan) = none := by rcases x with _ | ⟨_⟩ | ⟨_⟩ | ⟨_⟩ <;> rfl
  rw [atLeast?_numbers ha rfl, less_numbers ha rfl, unordered]
  exact ⟨rfl, rfl⟩

/-- NaN is not at least a number, and does not come before it. -/
theorem nan_left (hb : b.asNumber? = some y) (n : Option Nat) :
    (float n .nan).atLeast? b = some false ∧ (float n .nan).less b = .ok false := by
  have unordered : (Number.real .nan).compare? y = none := by rcases y with _ | ⟨_⟩ | ⟨_⟩ | ⟨_⟩ <;> rfl
  rw [atLeast?_numbers rfl hb, less_numbers rfl hb, unordered]
  exact ⟨rfl, rfl⟩

end Numbers

end Value

end ZincModel
