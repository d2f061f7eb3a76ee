import LooseC.Text.CharRange

/-!
# White space

`isBlank` is the Unicode property `White_Space`, the characters that separate tokens. It
holds of the form feed, the vertical tab and the next-line character, which `Char.isWhitespace`
leaves out, and of no zero-width character.
-/

set_option autoImplicit false

namespace LooseC

/-- The code points with the Unicode property `White_Space`, in ascending order. -/
def blankRanges : List (Nat × Nat) :=
  [(0x9, 0xd), (0x20, 0x20), (0x85, 0x85), (0xa0, 0xa0), (0x1680, 0x1680), (0x2000, 0x200a),
   (0x2028, 0x2029), (0x202f, 0x202f), (0x205f, 0x205f), (0x3000, 0x3000)]

/-- The Unicode property `White_Space`: the characters that separate tokens. -/
def isBlank (c : Char) : Bool :=
  inRanges blankRanges c

end LooseC
