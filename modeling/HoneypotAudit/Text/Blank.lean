import HoneypotAudit.Text.Ranges

/-!
# Blank characters and trimming

The white space of Unicode: the characters that separate words or lines, `isBlank`, and the
removal of them from the two ends of a text, `strip`.  The ASCII subset that may stand between
the bytes of a hexadecimal text is `isAsciiBlank`.
-/

namespace HoneypotAudit.Text

/-! ## The classes -/

/-- The code points of the white space of Unicode, as ranges with both ends included. -/
def blankRanges : List (Nat × Nat) :=
  [(0x09, 0x0D), (0x1C, 0x20), (0x85, 0x85), (0xA0, 0xA0), (0x1680, 0x1680), (0x2000, 0x200A),
    (0x2028, 0x2029), (0x202F, 0x202F), (0x205F, 0x205F), (0x3000, 0x3000)]

/-- White space of Unicode: the separators of words, lines and paragraphs. -/
def isBlank (c : Char) : Bool :=
  inRanges blankRanges c.toNat

/-- The six white space characters of ASCII: space, tab, line feed, vertical tab, form feed and
carriage return. -/
def isAsciiBlank (c : Char) : Bool :=
  c == ' ' || (decide (0x09 ≤ c.toNat) && decide (c.toNat ≤ 0x0D))

/-- The text without its leading characters of a class. -/
def trimLeft (p : Char → Bool) (cs : List Char) : List Char :=
  cs.dropWhile p

/-- The text without its trailing characters of a class. -/
def trimRight (p : Char → Bool) (cs : List Char) : List Char :=
  (cs.reverse.dropWhile p).reverse

/-- The text without the blanks at its two ends. -/
def strip (cs : List Char) : List Char :=
  trimRight isBlank (trimLeft isBlank cs)

end HoneypotAudit.Text
