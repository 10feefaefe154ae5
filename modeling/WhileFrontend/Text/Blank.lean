import WhileFrontend.Text.Ranges

/-!
# Blanks

The characters that separate tokens and otherwise leave no trace: the white space of Unicode 14.0
and the four separator controls U+001C to U+001F.
-/

namespace WhileFrontend.Text

/-- The code points that are blanks. -/
def blankRanges : Ranges :=
  [(0x9, 0xD), (0x1C, 0x20), (0x85, 0x85), (0xA0, 0xA0), (0x1680, 0x1680), (0x2000, 0x200A),
   (0x2028, 0x2029), (0x202F, 0x202F), (0x205F, 0x205F), (0x3000, 0x3000)]

/-- Spaces, tabs, line breaks and the separator controls. -/
def isBlank (c : Char) : Bool :=
  blankRanges.contains c.toNat

end WhileFrontend.Text
