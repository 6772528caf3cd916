import SpanLisp.Text.Binary64
import SpanLisp.Text.Integer

/-!
# Decimal numerals with a fraction

`Scientific.parse?` reads a decimal numeral with an optional sign, fraction and exponent;
underscores may stand between digits.  `Scientific.toBinary64?` rounds it to the nearest double.
-/

namespace SpanLisp

/-- The number `digits · 10^power` with a sign. -/
structure Scientific where
  /-- Is there a minus sign? -/
  negative : Bool
  /-- The digits of the whole part and the fraction. -/
  digits : Nat
  /-- The power of ten that the digits are multiplied by. -/
  power : Int
  deriving DecidableEq, Repr

namespace Scientific

/-- Digits without the underscores between them. -/
def withoutUnderscores (t : Bytes) : Bytes := t.filter (· != Integer.underscore)

/-- Does an exponent start with this byte? -/
def isExponentMark (b : UInt8) : Bool := b = 0x65 || b = 0x45

/-- Reads what follows the whole part and the fraction: nothing, or an exponent. -/
def exponent? (t : Bytes) : Option Int :=
  match t with
  | [] => some 0
  | mark :: rest =>
    let (negative, digits) := Integer.cutSign rest
    let value : Int := Decimal.toNat (withoutUnderscores digits)
    if isExponentMark mark ∧ digits.head?.any Decimal.isDigit ∧
        (withoutUnderscores digits).all Decimal.isDigit then
      some (if negative then -value else value)
    else none

/-- Reads a numeral. -/
def parse? (t : Bytes) : Option Scientific :=
  let (negative, body) := Integer.cutSign t
  let (whole, fraction) := Bytes.cut 0x2e (body.takeWhile (!isExponentMark ·))
  let front := withoutUnderscores whole
  let back := withoutUnderscores (fraction.getD [])
  match exponent? (body.dropWhile (!isExponentMark ·)) with
  | none => none
  | some power =>
    if front ++ back ≠ [] ∧ (front ++ back).all Decimal.isDigit ∧
        Integer.separated false false false body then
      some ⟨negative, Decimal.toNat (front ++ back), power - back.length⟩
    else none

/-- The nearest double, if the number is not too large for one. -/
def toBinary64? (x : Scientific) : Option Binary64 :=
  Binary64.ofDecimal? x.negative x.digits x.power

end Scientific

end SpanLisp
