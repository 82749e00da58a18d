/-!
# Powers

Powers of the bases that numbers are held and written in.
-/

namespace ZincModel

/-- A power of two. -/
abbrev twoTo (n : Nat) : Nat := Nat.pow 2 n

/-- A power of ten. -/
abbrev tenTo (n : Nat) : Nat := Nat.pow 10 n

end ZincModel
