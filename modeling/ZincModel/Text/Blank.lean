import ZincModel.Text.CodePoint

/-!
# Blank characters

The characters that count as blank at the ends of a text: the white space of Unicode together with the four
information separators U+001C to U+001F. `strip` cuts them off both ends.
-/

namespace ZincModel.Text

/-- The code points of the blank characters. -/
def blankRanges : List (Nat × Nat) :=
  [(0x09, 0x0D), (0x1C, 0x20), (0x85, 0x85), (0xA0, 0xA0), (0x1680, 0x1680), (0x2000, 0x200A),
   (0x2028, 0x2029), (0x202F, 0x202F), (0x205F, 0x205F), (0x3000, 0x3000)]

/-- The character is blank. -/
def isBlank (c : Char) : Bool := inRanges blankRanges c.toNat

/-- The text without the blank characters at its end. -/
def stripEnd : List Char → List Char
  | [] => []
  | c :: rest =>
    match stripEnd rest with
    | [] => if isBlank c then [] else [c]
    | kept => c :: kept

/-- The text without the blank characters at both ends. -/
def strip (s : List Char) : List Char := stripEnd (s.dropWhile isBlank)

end ZincModel.Text
