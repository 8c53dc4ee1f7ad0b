/-
  White space, as Unicode's property White_Space has it: the blanks of ASCII, the no-break and
  ideographic spaces, the typographic spaces, and the line and paragraph separators.
-/
import TypeTree.Text.Ranges

namespace TypeTree.Text

/-- The code points with the property White_Space. -/
def blankRanges : List (Nat × Nat) :=
  [(0x9, 0xD), (0x20, 0x20), (0x85, 0x85), (0xA0, 0xA0), (0x1680, 0x1680), (0x2000, 0x200A),
   (0x2028, 0x2029), (0x202F, 0x202F), (0x205F, 0x205F), (0x3000, 0x3000)]

/-- `c` is white space. -/
def isBlank (c : Char) : Bool :=
  inRanges blankRanges c.toNat

end TypeTree.Text
