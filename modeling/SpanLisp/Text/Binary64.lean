import SpanLisp.Json
import SpanLisp.Text.Decimal

/-!
# Numbers with a fraction

`Binary64.ofDecimal?` rounds a decimal number to the nearest double, a tie going to the even
significand, and refuses one that is too large.  `Binary64.shortest` writes a double with the
fewest digits that read back as it, of these the nearest to it; exponents outside -4 to 5 are
written with an `e`.
-/

namespace SpanLisp.Binary64

/-- Halves go to the even neighbour. -/
def roundDiv (num den : Nat) : Nat :=
  let q := num / den
  let r := num % den
  if den < 2 * r then q + 1 else if 2 * r < den then q else q + q % 2

/-- The nearest significand and exponent of the positive number `num / den`, before the range of
exponents is checked. -/
def nearest (num den : Nat) : Nat × Int :=
  -- the exponent that leaves 53 bits, but not below the least one
  let bits : Int := (num.log2 : Int) - den.log2
  let guess := max (bits - 53) (-1074)
  let scaled (q : Int) : Nat × Nat :=
    if 0 ≤ q then (num, den * Nat.pow 2 q.toNat) else (num * Nat.pow 2 (-q).toNat, den)
  let atGuess := scaled guess
  let q := if atGuess.1 / atGuess.2 < 9007199254740992 then guess else guess + 1
  let pair := scaled q
  let m := roundDiv pair.1 pair.2
  if m = 9007199254740992 then (4503599627370496, q + 1) else (m, q)

/-- The double nearest to `digits · 10^power`, if it is not too large. -/
def ofDecimal? (negative : Bool) (digits : Nat) (power : Int) : Option Binary64 :=
  if digits = 0 then some ⟨negative, 0, 0⟩
  else if 400 < power + (Nat.log2 digits / 4 : Nat) then none
  else if power + (Nat.log2 digits : Int) < -1200 then some ⟨negative, 0, 0⟩
  else
    let (m, q) := if 0 ≤ power then nearest (digits * Nat.pow 10 power.toNat) 1
      else nearest digits (Nat.pow 10 (-power).toNat)
    if 971 < q then none else some ⟨negative, m, if m = 0 then 0 else q⟩

/-- The number of decimal places before the point of `num / den`: the least `k` with
`num / den < 10^k`. -/
def decimalExponent (num den : Nat) : Int :=
  if den ≤ num then (Decimal.ofNat (num / den)).length
  else
    let inverse := (den + num - 1) / num
    let places := (Decimal.ofNat inverse).length
    1 - (places : Int) + if inverse = Nat.pow 10 (places - 1) then 1 else 0

/-- The digits of the shortest decimal that reads back as the positive double `m · 2^q`, and the
place of the decimal point counted from the first digit. -/
def shortestDigits (m : Nat) (q : Int) : Nat × Int :=
  -- value and bounds of the rounding interval over a common denominator
  let lowStep := if m = 4503599627370496 ∧ -1074 < q then 1 else 2
  let den : Nat := if 0 ≤ q then 4 else 4 * Nat.pow 2 (-q).toNat
  let scale : Nat := if 0 ≤ q then Nat.pow 2 q.toNat else 1
  let num := 4 * m * scale
  let low := (4 * m - lowStep) * scale
  let high := (4 * m + 2) * scale
  let closed := m % 2 = 0
  let k := decimalExponent num den
  let inside (n d : Nat) : Bool :=
    -- is n / d within the interval?
    if closed then low * d ≤ n * den && n * den ≤ high * d
    else low * d < n * den && n * den < high * d
  let tryAt (n : Nat) : Option (Nat × Int) :=
    -- a grid with n digits has the unit 10^(k - n)
    let e := k - n
    let unitNum : Nat := if 0 ≤ e then Nat.pow 10 e.toNat else 1
    let unitDen : Nat := if 0 ≤ e then 1 else Nat.pow 10 (-e).toNat
    let below := num * unitDen / (den * unitNum)
    let above := below + 1
    let distBelow := num * unitDen - below * unitNum * den
    let distAbove := above * unitNum * den - num * unitDen
    let okBelow := 0 < below && inside (below * unitNum) unitDen
    let okAbove := inside (above * unitNum) unitDen
    if okBelow && (!okAbove || distBelow < distAbove ||
        (distBelow = distAbove && below % 2 = 0)) then some (below, e)
    else if okAbove then some (above, e)
    else none
  match (List.range 17).findSome? fun i => tryAt (i + 1) with
  | some (d, e) => (d, (Decimal.ofNat d).length + e)
  | none => (m, 0)

/-- Takes the zeros at the end of a run of digits away. -/
def dropZeros (digits : Bytes) : Bytes := (digits.reverse.dropWhile (· == 48)).reverse

/-- An exponent with its sign and at least two digits. -/
def exponentText (e : Int) : Bytes :=
  let digits := Decimal.ofNat e.natAbs
  (if e < 0 then utf8 "e-" else utf8 "e+") ++
    (if digits.length < 2 then 48 :: digits else digits)

/-- The shortest text that reads back as the double. -/
def shortest (x : Binary64) : Bytes :=
  let sign := if x.negative then utf8 "-" else []
  if x.mantissa = 0 then sign ++ utf8 "0" else
  let (d, point) := shortestDigits x.mantissa x.exponent
  let digits := dropZeros (Decimal.ofNat d)
  let e := point - 1
  let body :=
    if e < -4 || 6 ≤ e then
      digits.take 1 ++ (if digits.length ≤ 1 then [] else utf8 "." ++ digits.drop 1) ++
        exponentText e
    else if point ≤ 0 then utf8 "0." ++ Bytes.copies (-point).toNat 48 ++ digits
    else if digits.length ≤ point.toNat then
      digits ++ Bytes.copies (point.toNat - digits.length) 48
    else digits.take point.toNat ++ utf8 "." ++ digits.drop point.toNat
  sign ++ body

/-- The whole part of a double as a 64 bit integer, if the double is at most 2^63.  What is beyond
the range of these integers becomes the least of them. -/
def toInteger? (x : Binary64) : Option Int :=
  let size := if 0 ≤ x.exponent then x.mantissa * Nat.pow 2 x.exponent.toNat
    else x.mantissa / Nat.pow 2 (-x.exponent).toNat
  let n : Int := if x.negative then -(size : Int) else size
  if 9223372036854775808 < n then none
  else if -9223372036854775808 ≤ n ∧ n ≤ 9223372036854775807 then some n
  else some (-9223372036854775808)

end SpanLisp.Binary64
