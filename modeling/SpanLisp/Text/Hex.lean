import SpanLisp.Text.Bytes

/-!
# Hexadecimal digits

Bytes as pairs of hexadecimal digits, written in small letters and read in either case.
-/

namespace SpanLisp.Hex

/-- The digit of a number below sixteen. -/
def digit (n : Nat) : UInt8 := UInt8.ofNat (if n < 10 then 48 + n else 87 + n)

/-- The number of a hexadecimal digit. -/
def value? (b : UInt8) : Option Nat :=
  if 48 ≤ b && b ≤ 57 then some (b.toNat - 48)
  else if 97 ≤ b && b ≤ 102 then some (b.toNat - 87)
  else if 65 ≤ b && b ≤ 70 then some (b.toNat - 55)
  else none

/-- The two digits of a byte. -/
def ofByte (b : UInt8) : Bytes := [digit (b.toNat / 16), digit (b.toNat % 16)]

/-- The digits of bytes. -/
def ofBytes (t : Bytes) : Bytes := t.flatMap ofByte

/-- The byte that two digits spell. -/
def byte? (hi lo : UInt8) : Option UInt8 :=
  match value? hi, value? lo with
  | some h, some l => some (UInt8.ofNat (h * 16 + l))
  | _, _ => none

/-- The bytes that pairs of digits spell. -/
def toBytes? : Bytes → Option Bytes
  | [] => some []
  | hi :: lo :: rest =>
    match byte? hi lo with
    | some b => (toBytes? rest).map (b :: ·)
    | none => none
  | [_] => none

/-- The last `width` hexadecimal digits of a number. -/
def ofNat : (width n : Nat) → Bytes
  | 0, _ => []
  | width + 1, n => ofNat width (n / 16) ++ [digit (n % 16)]

end SpanLisp.Hex
