import Tagging.Unicode.Ranges

/-!
# White space

The characters with the property White_Space of Unicode 17: the 25 characters that separate words
and lines.
-/

namespace Tagging.Unicode

/-- The code points with the property White_Space. -/
def whiteSpaceRanges : Ranges where
  toList :=
    [(0x0009, 0x000D), (0x0020, 0x0020), (0x0085, 0x0085), (0x00A0, 0x00A0), (0x1680, 0x1680),
     (0x2000, 0x200A), (0x2028, 0x2029), (0x202F, 0x202F), (0x205F, 0x205F), (0x3000, 0x3000)]
  ascending := by decide

/-- Whether the character is white space, in any script. -/
def isWhiteSpace (c : Char) : Bool :=
  whiteSpaceRanges.covers c.toNat

end Tagging.Unicode
