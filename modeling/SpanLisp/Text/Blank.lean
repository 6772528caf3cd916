import SpanLisp.Text.Ranges
import SpanLisp.Text.Utf8

/-!
# Blanks around a text

`Blank.trim` removes the characters with the Unicode property `White_Space` from both ends of a
text.
-/

namespace SpanLisp.Blank

/-- The characters with the property `White_Space`. -/
def table : Ranges :=
  [(0x09, 0x0d), (0x20, 0x20), (0x85, 0x85), (0xa0, 0xa0), (0x1680, 0x1680), (0x2000, 0x200a),
    (0x2028, 0x2029), (0x202f, 0x202f), (0x205f, 0x205f), (0x3000, 0x3000)]

/-- Is the character blank? -/
def isBlank (r : Rune) : Bool := table.has r.char.toNat

/-- The text without the blanks at its start. -/
def trimRunes (rs : List Rune) : List Rune := rs.dropWhile isBlank

/-- The text without the blanks at its ends. -/
def trim (t : Bytes) : Bytes :=
  ((trimRunes (trimRunes (Utf8.runes t)).reverse).reverse).flatMap Rune.bytes

end SpanLisp.Blank
