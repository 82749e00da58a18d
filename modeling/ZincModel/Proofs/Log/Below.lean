import Mathlib.Data.List.Basic
import ZincModel.Log.Hierarchy

/-!
# Parts of the program

A name that goes on behind the name of the program with a dot and something other than a second dot is that of a part
of the program, whatever other parts have been used (`belongs_of_isBelow`). Of other names that is not so: where two
dots follow the name of the program, the first one counts as a character of a name, so it is decided by which parts are
there.
-/

namespace ZincModel.Log

/-- The part belongs to the program, whatever other parts have been used. -/
def Belongs (logger : String) : Prop := ∀ present, isPart present logger = true

/-- The name of the program, or a name that goes on behind it with a dot and no second one. -/
def IsBelow (name : String) : Prop :=
  name = rootName ∨ ∃ c rest, name.toList = rootName.toList ++ '.' :: c :: rest ∧ c ≠ '.'

theorem reaches_root (present : List String) (fuel : Nat) : reaches present fuel rootName = true := by
  cases fuel <;> simp [reaches]

/-- Whichever part is the nearest one that is there, it is reached. -/
theorem reaches_succ {present : List String} {fuel : Nat} {name : String} (root : rootName ∈ surrounding name)
    (around : ∀ part ∈ surrounding name, reaches present fuel part = true) :
    reaches present (fuel + 1) name = true := by
  rw [reaches, Bool.or_eq_true]
  right
  split
  · next part nearest => exact around part (List.mem_of_find?_eq_some nearest)
  · next none =>
    have passed := List.find?_eq_none.1 none rootName root
    simp at passed

theorem beforeDots_dot (c : Char) (before : List Char) :
    beforeDots ('.' :: c :: before) = (c :: before).reverse :: beforeDots before := rfl

theorem beforeDots_cons {c : Char} (h : c ≠ '.') (rest : List Char) : beforeDots (c :: rest) = beforeDots rest := by
  rw [beforeDots]
  exact h

/-- In front of the dot behind the name of the program stands that name alone. -/
theorem beforeDots_root : beforeDots ('.' :: rootName.toList.reverse) = [rootName.toList] := by decide +kernel

/-- What stands in front of the dots of a name below the program, which is given from its end on: the name of the
program, and else shorter names below it. -/
theorem beforeDots_below {c : Char} (single : c ≠ '.') :
    ∀ xs : List Char, rootName.toList ∈ beforeDots (xs ++ c :: '.' :: rootName.toList.reverse) ∧
      ∀ p ∈ beforeDots (xs ++ c :: '.' :: rootName.toList.reverse), p = rootName.toList ∨
        ∃ ys, p = rootName.toList ++ '.' :: c :: ys ∧ ys.length < xs.length
  | [] => by
    simp [beforeDots_cons single, beforeDots_root]
  | [x] => by
    obtain ⟨root, others⟩ := beforeDots_below single []
    by_cases dot : x = '.'
    · simp [dot, beforeDots_dot, beforeDots_root]
    · simp only [List.cons_append, List.nil_append, beforeDots_cons dot] at root others ⊢
      exact ⟨root, fun p hp => .inl ((others p hp).resolve_right (by simp))⟩
  | x :: y :: xs => by
    by_cases dot : x = '.'
    · obtain ⟨root, others⟩ := beforeDots_below single xs
      simp only [dot, List.cons_append, beforeDots_dot]
      refine ⟨List.mem_cons_of_mem _ root, List.forall_mem_cons.2 ⟨.inr ⟨xs.reverse ++ [y], ?_, ?_⟩, ?_⟩⟩
      · simp
      · simp
      · intro p hp
        exact (others p hp).imp_right fun ⟨ys, e, shorter⟩ => ⟨ys, e, by simp; omega⟩
    · obtain ⟨root, others⟩ := beforeDots_below single (y :: xs)
      rw [List.cons_append, beforeDots_cons dot]
      exact ⟨root, fun p hp => (others p hp).imp_right fun ⟨ys, e, shorter⟩ => ⟨ys, e, by simp at shorter ⊢; omega⟩⟩

/-- The parts around one below the program are the program and parts with shorter names below it. -/
theorem surrounding_below {name : String} (h : IsBelow name) (other : name ≠ rootName) :
    rootName ∈ surrounding name ∧ ∀ part ∈ surrounding name, IsBelow part ∧ part.length < name.length := by
  obtain ⟨c, rest, spelled, single⟩ := h.resolve_left other
  have reversed : name.toList.reverse = rest.reverse ++ c :: '.' :: rootName.toList.reverse := by simp [spelled]
  have length : name.length = rootName.length + (rest.length + 2) := by
    rw [← String.length_toList, spelled, List.length_append, List.length_cons, List.length_cons, String.length_toList]
  obtain ⟨root, others⟩ := beforeDots_below single rest.reverse
  rw [← reversed] at root others
  refine ⟨List.mem_map.2 ⟨_, root, String.ofList_toList⟩, ?_⟩
  intro part hpart
  obtain ⟨p, hp, rfl⟩ := List.mem_map.1 hpart
  rcases others p hp with rfl | ⟨ys, rfl, shorter⟩
  · refine ⟨.inl String.ofList_toList, ?_⟩
    rw [String.ofList_toList, length]
    omega
  · refine ⟨.inr ⟨c, ys, String.toList_ofList, single⟩, ?_⟩
    rw [List.length_reverse] at shorter
    rw [length, String.length_ofList, List.length_append, List.length_cons, List.length_cons, String.length_toList]
    omega

theorem reaches_below {present : List String} {fuel : Nat} {name : String} (h : IsBelow name)
    (bound : name.length ≤ fuel) : reaches present fuel name = true := by
  induction fuel generalizing name with
  | zero =>
    obtain rfl : name = "" := String.length_eq_zero_iff.1 (by omega)
    rcases h with own | ⟨c, rest, spelled, -⟩
    · exact absurd own (by decide)
    · simp at spelled
  | succ fuel ih =>
    by_cases own : name = rootName
    · exact own ▸ reaches_root present _
    · obtain ⟨root, around⟩ := surrounding_below h own
      refine reaches_succ root fun part hpart => ih (around part hpart).1 ?_
      have shorter := (around part hpart).2
      omega

theorem belongs_of_isBelow {name : String} (h : IsBelow name) : Belongs name :=
  fun _ => reaches_below h (Nat.le_refl _)

end ZincModel.Log
