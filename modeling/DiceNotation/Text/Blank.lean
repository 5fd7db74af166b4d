import DiceNotation.Text.CodePoints

/-!
# Blank characters

The property `White_Space` of the Unicode standard, and the trimming of texts
by it.
-/

namespace DiceNotation.Text

def blankRanges : CodePoints :=
  [(0x9, 0xD), (0x20, 0x20), (0x85, 0x85), (0xA0, 0xA0), (0x1680, 0x1680), (0x2000, 0x200A),
   (0x2028, 0x2029), (0x202F, 0x202F), (0x205F, 0x205F), (0x3000, 0x3000)]

def isBlank (c : Char) : Bool := blankRanges.contains c.toNat

example : blankRanges.ascending = true ∧ blankRanges.size = 25 := by decide

def trim (text : List Char) : List Char :=
  ((text.dropWhile isBlank).reverse.dropWhile isBlank).reverse

end DiceNotation.Text
