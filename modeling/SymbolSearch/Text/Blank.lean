import SymbolSearch.Text.Basic
import SymbolSearch.Text.Ranges

/-!
# Blanks

The classes of white space that the formats of this library know. They differ in the control characters they hold.
-/

namespace SymbolSearch.Text

/-- The blanks that divide keywords and fields: the white space of all scripts and the four information separators. -/
def blankRanges : Ranges :=
  [(0x9, 0xD), (0x1C, 0x20), (0x85, 0x85), (0xA0, 0xA0), (0x1680, 0x1680), (0x2000, 0x200A),
   (0x2028, 0x2029), (0x202F, 0x202F), (0x205F, 0x205F), (0x3000, 0x3000)]

/-- A blank of any script, the information separators included. -/
def isBlank (c : Char) : Bool :=
  blankRanges.contains c.toNat

/-- White space of any script, without the information separators. -/
def isSpace (c : Char) : Bool :=
  isBlank c && !(0x1C ≤ c.toNat && c.toNat ≤ 0x1F)

/-- A space or a tab. -/
def isGap (c : Char) : Bool :=
  c = ' ' || c = '\t'

/-- The text without blanks at either end. -/
def strip (s : Text) : Text :=
  trim isBlank s

/-- The maximal runs of characters other than blanks. -/
def fields (s : Text) : List Text :=
  words isBlank s

end SymbolSearch.Text
