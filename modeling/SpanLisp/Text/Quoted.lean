import SpanLisp.Text.Hex
import SpanLisp.Text.PrintableTable
import SpanLisp.Text.Utf8

/-!
# Quoted texts

`Quoted.encode` writes a text between double quotes so that all of it can be seen: printable
characters as they are, the usual one-letter escapes, and hexadecimal escapes for the rest.
-/

namespace SpanLisp.Quoted

/-- Is the character visible?  Of the blanks only the plain space is. -/
def isPrintable (c : Char) : Bool :=
  let n := c.toNat
  (0x20 ≤ n && n < 0x7f) || (0xa0 < n && printableRanges.has n)

/-- The letter of a one-letter escape. -/
def escapeLetter? (n : Nat) : Option UInt8 :=
  if n = 0x22 then some 0x22
  else if n = 0x5c then some 0x5c
  else if n = 0x07 then some 0x61
  else if n = 0x08 then some 0x62
  else if n = 0x0c then some 0x66
  else if n = 0x0a then some 0x6e
  else if n = 0x0d then some 0x72
  else if n = 0x09 then some 0x74
  else if n = 0x0b then some 0x76
  else none

/-- A character as it stands between quotes. -/
def encodeRune (r : Rune) : Bytes :=
  let n := r.char.toNat
  if Utf8.isStray r then utf8 "\\x" ++ Hex.ofBytes r.bytes
  else match escapeLetter? n with
  | some letter => [0x5c, letter]
  | none =>
    if isPrintable r.char then r.bytes
    else if n < 0x80 then utf8 "\\x" ++ Hex.ofNat 2 n
    else if n < 0x10000 then utf8 "\\u" ++ Hex.ofNat 4 n
    else utf8 "\\U" ++ Hex.ofNat 8 n

/-- The text between double quotes. -/
def encode (t : Bytes) : Bytes := 0x22 :: (Utf8.runes t).flatMap encodeRune ++ [0x22]

end SpanLisp.Quoted
