import ZincModel.Proofs.Value.Induction
import ZincModel.Proofs.Value.Object

/-!
# Values made anew

What is read from the text of a value is the same value once more, made anew (`Renewed`): its containers have numbers
of their own and hold no loops, and its entries are in the old order. So it is the same in every respect but its numbers
(`Renewed.same`).
-/

namespace ZincModel.Value

/-- The second value is the first one made anew. -/
inductive Renewed : Value → Value → Prop
  | null : Renewed null null
  | bool (b : Bool) : Renewed (bool b) (bool b)
  | int (n : Int) : Renewed (int n) (int n)
  | float (number number' : Option Nat) (x : Double) : Renewed (float number x) (float number' x)
  | str (s : String) : Renewed (str s) (str s)
  | list (l : Option Label) (number : Nat) {items items' : List Value} :
      List.Forall₂ Renewed items items' → Renewed (list l items) (list (some ⟨number, false⟩) items')
  | dict (l : Option Label) (number : Nat) {entries entries' : List (Value × Value)} :
      IsObject entries → entries'.map Prod.fst = entries.map Prod.fst →
      List.Forall₂ Renewed (entries.map Prod.snd) (entries'.map Prod.snd) →
      Renewed (dict l entries) (dict (some ⟨number, false⟩) entries')

/-! ## Sameness -/

theorem sameAll_iff {as bs : List Value} : sameAll as bs = true ↔ List.Forall₂ (fun a b => a.same b = true) as bs := by
  induction as generalizing bs with
  | nil => cases bs <;> simp [sameAll]
  | cons a as ih =>
    cases bs with
    | nil => simp [sameAll]
    | cons b bs => simp [sameAll, ih]

theorem sameEntries_iff {as bs : List (Value × Value)} :
    sameEntries as bs = true ↔ List.Forall₂ (fun a b => a.1.same b.1 = true ∧ a.2.same b.2 = true) as bs := by
  induction as generalizing bs with
  | nil => cases bs <;> simp [sameEntries]
  | cons a as ih =>
    cases bs with
    | nil => simp [sameEntries]
    | cons b bs => simp [sameEntries, ih]

@[simp] theorem same_refl (v : Value) : v.same v = true := by
  induction v using Value.induction with
  | scalar v h => cases v <;> first | (simp [same]; done) | cases h
  | list l items ih => exact sameAll_iff.2 (List.forall₂_same.2 ih)
  | tuple l items ih => exact sameAll_iff.2 (List.forall₂_same.2 ih)
  | set l items ih => exact sameAll_iff.2 (List.forall₂_same.2 ih)
  | dict l entries ih => exact sameEntries_iff.2 (List.forall₂_same.2 ih)

namespace Renewed

theorem same {v v' : Value} (h : Renewed v v') : v'.same v = true := by
  induction v using Value.induction generalizing v' with
  | scalar v scalar =>
    cases h with
    | float => simp [Value.same]
    | list => cases scalar
    | dict => cases scalar
    | _ => exact same_refl _
  | list l items ih =>
    cases h with
    | list _ number items =>
      refine sameAll_iff.2 (List.Forall₂.flip ?_)
      exact (List.forall₂_and_left _ _).2 ⟨fun v hv => hv, items⟩ |>.imp fun v v' h => ih v h.1 h.2
  | tuple => cases h
  | set => cases h
  | dict l entries ih =>
    cases h with
    | dict _ number object keys values =>
      refine sameEntries_iff.2 (List.Forall₂.flip ?_)
      have entries := forall₂_entries keys values
      refine ((List.forall₂_and_left _ _).2 ⟨fun e he => he, entries⟩).imp fun e e' h => ?_
      exact ⟨h.2.1 ▸ same_refl _, (ih e h.1).2 h.2.2⟩

/-- Entries with text keys are made anew one by one. -/
theorem of_fields {fields : List (String × Value)} {entries' : List (Value × Value)}
    (keys : entries'.map Prod.fst = (fields.map fun f => (Value.str f.1, f.2)).map Prod.fst)
    (values : List.Forall₂ Renewed ((fields.map fun f => (Value.str f.1, f.2)).map Prod.snd) (entries'.map Prod.snd)) :
    ∃ fields' : List (String × Value), entries' = fields'.map (fun f => (.str f.1, f.2)) ∧
      List.Forall₂ (fun f f' => f'.1 = f.1 ∧ Renewed f.2 f'.2) fields fields' := by
  have entries := List.forall₂_map_left_iff.1 (forall₂_entries keys values)
  clear keys values
  induction entries with
  | nil => exact ⟨[], rfl, .nil⟩
  | @cons f e' fields entries' first _ ih =>
    obtain ⟨fields', rfl, others⟩ := ih
    exact ⟨(f.1, e'.2) :: fields', congrArg (· :: _) (Prod.ext first.1 rfl), .cons ⟨rfl, first.2⟩ others⟩

end Renewed

end ZincModel.Value
