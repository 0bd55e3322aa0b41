import ResponseModel.Text.CharRange

/-!
# White space

The characters that leave a blank, in all scripts.
-/

namespace ResponseModel

namespace Text

/-- The ranges of white space. -/
def spaceRanges : List (Nat × Nat) :=
  [(0x9, 0xd), (0x20, 0x20), (0x85, 0x85), (0xa0, 0xa0), (0x1680, 0x1680), (0x2000, 0x200a),
   (0x2028, 0x2029), (0x202f, 0x202f), (0x205f, 0x205f), (0x3000, 0x3000)]

/-- Whether a character is white space. -/
def isSpaceChar (c : Char) : Bool := inRanges spaceRanges c.toNat

end Text

end ResponseModel
