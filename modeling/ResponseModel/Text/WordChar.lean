import ResponseModel.Text.Category

/-!
# Letters, digits and word characters

Letters, marks, decimal digits, connecting punctuation and the two joiners are word characters.  Not
all marks are alphabetic.
-/

namespace ResponseModel

namespace Text

/-- The marks that are not alphabetic. -/
def plainMarkRanges : List (Nat × Nat) :=
  [(0x300, 0x344), (0x346, 0x36f), (0x483, 0x489), (0x591, 0x5af), (0x658, 0x658), (0x6df, 0x6e0),
   (0x6ea, 0x6ec), (0x740, 0x74a), (0x7eb, 0x7f3), (0x7fd, 0x7fd), (0x818, 0x819), (0x82d, 0x82d),
   (0x859, 0x85b), (0x898, 0x89f), (0x8ca, 0x8d3), (0x8e0, 0x8e1), (0x8ea, 0x8ef), (0x93c, 0x93c),
   (0x94d, 0x94d), (0x951, 0x954), (0x9bc, 0x9bc), (0x9cd, 0x9cd), (0x9fe, 0x9fe), (0xa3c, 0xa3c),
   (0xa4d, 0xa4d), (0xabc, 0xabc), (0xacd, 0xacd), (0xafd, 0xaff), (0xb3c, 0xb3c), (0xb4d, 0xb4d),
   (0xb55, 0xb55), (0xbcd, 0xbcd), (0xc3c, 0xc3c), (0xc4d, 0xc4d), (0xcbc, 0xcbc), (0xccd, 0xccd),
   (0xd3b, 0xd3c), (0xd4d, 0xd4d), (0xdca, 0xdca), (0xe47, 0xe4c), (0xe4e, 0xe4e), (0xeba, 0xeba),
   (0xec8, 0xecc), (0xece, 0xece), (0xf18, 0xf19), (0xf35, 0xf35), (0xf37, 0xf37), (0xf39, 0xf39),
   (0xf3e, 0xf3f), (0xf84, 0xf84), (0xf86, 0xf87), (0xfc6, 0xfc6), (0x1037, 0x1037),
   (0x1039, 0x103a), (0x135d, 0x135f), (0x1714, 0x1715), (0x1734, 0x1734), (0x17b4, 0x17b5),
   (0x17c9, 0x17d3), (0x17dd, 0x17dd), (0x180b, 0x180d), (0x180f, 0x180f), (0x1939, 0x193b),
   (0x1a60, 0x1a60), (0x1a75, 0x1a7c), (0x1a7f, 0x1a7f), (0x1ab0, 0x1abe), (0x1ac1, 0x1acb),
   (0x1b34, 0x1b34), (0x1b44, 0x1b44), (0x1b6b, 0x1b73), (0x1baa, 0x1bab), (0x1be6, 0x1be6),
   (0x1bf2, 0x1bf3), (0x1c37, 0x1c37), (0x1cd0, 0x1cd2), (0x1cd4, 0x1ce8), (0x1ced, 0x1ced),
   (0x1cf4, 0x1cf4), (0x1cf7, 0x1cf9), (0x1dc0, 0x1de6), (0x1df5, 0x1dff), (0x20d0, 0x20f0),
   (0x2cef, 0x2cf1), (0x2d7f, 0x2d7f), (0x302a, 0x302f), (0x3099, 0x309a), (0xa66f, 0xa672),
   (0xa67c, 0xa67d), (0xa6f0, 0xa6f1), (0xa806, 0xa806), (0xa82c, 0xa82c), (0xa8c4, 0xa8c4),
   (0xa8e0, 0xa8f1), (0xa92b, 0xa92d), (0xa953, 0xa953), (0xa9b3, 0xa9b3), (0xa9c0, 0xa9c0),
   (0xaabf, 0xaabf), (0xaac1, 0xaac1), (0xaaf6, 0xaaf6), (0xabec, 0xabed), (0xfe00, 0xfe0f),
   (0xfe20, 0xfe2f), (0x101fd, 0x101fd), (0x102e0, 0x102e0), (0x10a38, 0x10a3a),
   (0x10a3f, 0x10a3f), (0x10ae5, 0x10ae6), (0x10efd, 0x10eff), (0x10f46, 0x10f50),
   (0x10f82, 0x10f85), (0x11046, 0x11046), (0x11070, 0x11070), (0x1107f, 0x1107f),
   (0x110b9, 0x110ba), (0x11133, 0x11134), (0x11173, 0x11173), (0x111c0, 0x111c0),
   (0x111c9, 0x111cc), (0x11235, 0x11236), (0x112e9, 0x112ea), (0x1133b, 0x1133c),
   (0x1134d, 0x1134d), (0x11366, 0x1136c), (0x11370, 0x11374), (0x11442, 0x11442),
   (0x11446, 0x11446), (0x1145e, 0x1145e), (0x114c2, 0x114c3), (0x115bf, 0x115c0),
   (0x1163f, 0x1163f), (0x116b6, 0x116b7), (0x1172b, 0x1172b), (0x11839, 0x1183a),
   (0x1193d, 0x1193e), (0x11943, 0x11943), (0x119e0, 0x119e0), (0x11a33, 0x11a34),
   (0x11a47, 0x11a47), (0x11a98, 0x11a99), (0x11c3f, 0x11c3f), (0x11d42, 0x11d42),
   (0x11d44, 0x11d45), (0x11d97, 0x11d97), (0x11f41, 0x11f42), (0x13440, 0x13440),
   (0x13447, 0x13455), (0x16af0, 0x16af4), (0x16b30, 0x16b36), (0x16fe4, 0x16fe4),
   (0x1bc9d, 0x1bc9d), (0x1cf00, 0x1cf2d), (0x1cf30, 0x1cf46), (0x1d165, 0x1d169),
   (0x1d16d, 0x1d172), (0x1d17b, 0x1d182), (0x1d185, 0x1d18b), (0x1d1aa, 0x1d1ad),
   (0x1d242, 0x1d244), (0x1da00, 0x1da36), (0x1da3b, 0x1da6c), (0x1da75, 0x1da75),
   (0x1da84, 0x1da84), (0x1da9b, 0x1da9f), (0x1daa1, 0x1daaf), (0x1e130, 0x1e136),
   (0x1e2ae, 0x1e2ae), (0x1e2ec, 0x1e2ef), (0x1e4ec, 0x1e4ef), (0x1e8d0, 0x1e8d6),
   (0x1e944, 0x1e946), (0x1e948, 0x1e94a), (0xe0100, 0xe01ef)]

/-- The symbols that are letters in a circle or a square. -/
def enclosedLetterRanges : List (Nat × Nat) :=
  [(0x24b6, 0x24e9), (0x1f130, 0x1f149), (0x1f150, 0x1f169), (0x1f170, 0x1f189)]

/-- Whether a category holds letters, or numbers that are letters. -/
def Category.isLetter (category : Category) : Bool :=
  category ∈
    [.upperLetter, .lowerLetter, .titleLetter, .modifierLetter, .otherLetter, .letterNumber]

/-- Whether a category holds marks. -/
def Category.isMark (category : Category) : Bool :=
  category ∈ [.nonspacingMark, .spacingMark, .enclosingMark]

/-- Whether a character is alphabetic. -/
def isAlphabetic (c : Char) : Bool :=
  if c.toNat < 0x80 then c.isAlpha
  else
    (categoryOf c.toNat).isLetter || inRanges enclosedLetterRanges c.toNat
      || ((categoryOf c.toNat).isMark && !inRanges plainMarkRanges c.toNat)

/-- Whether a character is a decimal digit. -/
def isDigitChar (c : Char) : Bool :=
  if c.toNat < 0x80 then c.isDigit else categoryOf c.toNat = .decimalNumber

/-- Whether a character stands for a number. -/
def isNumeric (c : Char) : Bool :=
  categoryOf c.toNat ∈ [.decimalNumber, .letterNumber, .otherNumber]

/-- Whether a character is a word character. -/
def isWordChar (c : Char) : Bool :=
  if c.toNat < 0x80 then c.isAlphanum || c == '_'
  else
    (categoryOf c.toNat).isLetter || (categoryOf c.toNat).isMark
      || categoryOf c.toNat ∈ [.decimalNumber, .connector]
      || inRanges enclosedLetterRanges c.toNat || c == '\u200c' || c == '\u200d'

end Text

end ResponseModel
