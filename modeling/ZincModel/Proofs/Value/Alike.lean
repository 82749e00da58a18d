import Mathlib.Data.List.Forall2
import ZincModel.Value.Basic

/-!
# Alike values

Two values are alike if they are of the same kinds throughout and have the same content, but for the order of
entries in dictionaries and for the numbers of what is shared.
-/

namespace ZincModel.Value

/-- The two values are the same but for the order of entries and for what is shared. -/
inductive Alike : Value → Value → Prop
  | refl (v : Value) : Alike v v
  | float (n n' : Option Nat) (x : Double) : Alike (float n x) (float n' x)
  | list (l l' : Option Label) {items items' : List Value} :
      List.Forall₂ Alike items items' → Alike (list l items) (list l' items')
  | dict (l l' : Option Label) {entries entries' arranged : List (Value × Value)} :
      entries.map Prod.fst = entries'.map Prod.fst →
      List.Forall₂ Alike (entries.map Prod.snd) (entries'.map Prod.snd) →
      entries'.Perm arranged → Alike (dict l entries) (dict l' arranged)

namespace Alike

variable {f : Value → Value} (l l' : Option Label)

theorem list_map {items : List Value} (h : ∀ v ∈ items, Alike v (f v)) :
    Alike (.list l items) (.list l' (items.map f)) :=
  .list l l' (List.forall₂_map_right_iff.2 (List.forall₂_same.2 h))

theorem dict_map {entries arranged : List (Value × Value)} (h : ∀ e ∈ entries, Alike e.2 (f e.2))
    (p : (entries.map fun e => (e.1, f e.2)).Perm arranged) : Alike (.dict l entries) (.dict l' arranged) := by
  apply Alike.dict l l' _ _ p
  · rw [List.map_map]
    rfl
  · rw [List.map_map, List.forall₂_map_left_iff, List.forall₂_map_right_iff]
    exact List.forall₂_same.2 h

end Alike

end ZincModel.Value
