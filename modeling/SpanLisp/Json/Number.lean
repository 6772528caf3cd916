import SpanLisp.Text.Scientific

/-!
# Numbers of JSON

A number is a run of digits, points, signs and the letter `e`.  `Json.number?` reads one by its
looks: a whole number that fits in 64 bits, or else a double.  `Json.real?` and `Json.integer?`
read a number where a double or a whole number is expected.

Short numerals are read in one pass (`Numeral.read`), which asks for no digits at all: an absent
part counts as zero.  A numeral that is too long for it has to be complete.
-/

namespace SpanLisp.Json

/-- The characters that numbers are made of. -/
def isNumeric (b : UInt8) : Bool :=
  Decimal.isDigit b || b = 0x2e || b = 0x2b || b = 0x2d || b = 0x65 || b = 0x45

/-! ### Short numerals -/

/-- A short numeral: `significand · 10^power` with a sign. -/
structure Numeral where
  /-- Is there a minus sign? -/
  negative : Bool
  /-- The digits from the first that is not zero on. -/
  significand : Nat
  /-- The power of ten that they are multiplied by. -/
  power : Int
  deriving DecidableEq, Repr

namespace Numeral

/-- Why a text is no short numeral. -/
inductive Refusal where
  /-- It has a character in the wrong place. -/
  | malformed
  /-- It is too long. -/
  | long
  deriving DecidableEq, Repr

/-- How long a short numeral may be. -/
structure Limits where
  /-- Digits are taken up while the significand is below this. -/
  cutoff : Nat
  /-- The significand is below this. -/
  bound : Nat
  /-- The least power of ten. -/
  least : Int
  /-- The greatest power of ten. -/
  greatest : Int

/-- Numerals that a double renders exactly, up to one rounding. -/
def Limits.real : Limits := ⟨4503599627370495, 4503599627370496, -22, 37⟩

/-- Numerals whose significand fits in 64 bits. -/
def Limits.word : Limits := ⟨1844674407370955162, 18446744073709551616, -19, 19⟩

/-- What has been read of the digits of a numeral.  Places are counted in eight bits. -/
structure Tally where
  /-- The number that the digits taken up spell. -/
  significand : Nat := 0
  /-- The number of digits from the first that is not zero on. -/
  digits : Int8 := 0
  /-- The number of those taken up. -/
  kept : Int8 := 0
  /-- The place of the point, counted from the first digit that is not zero. -/
  point : Int8 := 0
  /-- Has a point come? -/
  hasPoint : Bool := false

/-- Takes a digit into the tally; zeros at the front only move the point, and further zeros count
without being taken up once the significand has reached the cutoff. -/
def Tally.add (s : Tally) (cutoff : Nat) (digit : UInt8) : Option Tally :=
  if digit = 0x30 ∧ s.digits = 0 then some { s with point := s.point - 1 }
  else if s.significand < cutoff then
    some { s with
      significand := 10 * s.significand + Decimal.digitValue digit
      digits := s.digits + 1
      kept := s.kept + 1 }
  else if digit = 0x30 then some { s with digits := s.digits + 1 }
  else none

/-- Reads digits with at most one point, up to the exponent; gives the exponent's text. -/
def readDigits (cutoff : Nat) : Tally → Bytes → Except Refusal (Tally × Bytes)
  | s, [] => .ok (s, [])
  | s, b :: rest =>
    if Scientific.isExponentMark b then .ok (s, rest)
    else if b = 0x2e then
      if s.hasPoint then .error .malformed
      else readDigits cutoff { s with hasPoint := true, point := s.digits } rest
    else if Decimal.isDigit b then
      match s.add cutoff b with
      | some s => readDigits cutoff s rest
      | none => .error .long
    else .error .malformed

/-- Reads an exponent of at most two digits after its letter; nothing reads as zero. -/
def readExponent (t : Bytes) : Except Refusal Int8 :=
  let (negative, digits) := Integer.cutSign t
  if 2 < digits.length then .error .long
  else if digits.all Decimal.isDigit then
    let e := Int8.ofNat (Decimal.toNat digits)
    .ok (if negative then -e else e)
  else .error .malformed

/-- Reads a short numeral. -/
def read (limits : Limits) (t : Bytes) : Except Refusal Numeral :=
  let negative := t.head? = some 0x2d
  match readDigits limits.cutoff {} (if negative then t.drop 1 else t) with
  | .error e => .error e
  | .ok (s, exponent) =>
    match readExponent exponent with
    | .error e => .error e
    | .ok e =>
      let point := if s.hasPoint then s.point else s.digits
      let power := if s.significand = 0 then 0 else (point + e - s.kept).toInt
      if s.significand < limits.bound ∧ limits.least ≤ power ∧ power ≤ limits.greatest then
        .ok ⟨negative, s.significand, power⟩
      else .error .long

/-- The whole number that a numeral denotes, in 64 bits; a fraction is refused. -/
def word? (x : Numeral) : Option Nat :=
  if 0 ≤ x.power then
    some (x.significand * Nat.pow 10 x.power.toNat % 18446744073709551616)
  else
    let unit := Nat.pow 10 (-x.power).toNat
    if x.significand % unit = 0 then some (x.significand / unit) else none

end Numeral

/-! ### Numbers -/

/-- Reads digits as a 64 bit number; no digits read as 0. -/
def word? (digits : Bytes) : Option Nat :=
  let n := Decimal.toNat digits
  if digits.all Decimal.isDigit ∧ n ≤ 18446744073709551615 then some n else none

/-- Reads a number as a double. -/
def real? (t : Bytes) : Option Binary64 :=
  match Numeral.read .real t with
  | .ok x => Binary64.ofDecimal? x.negative x.significand x.power
  | .error .malformed => none
  | .error .long => (Scientific.parse? t).bind Scientific.toBinary64?

/-- Gives a 64 bit number a minus sign, if it does not become too small. -/
def negated? (n : Nat) : Option Int := if n ≤ 9223372036854775808 then some (-(n : Int)) else none

/-- Reads a number by its looks. -/
def number? (t : Bytes) : Option Scalar :=
  match t with
  | [] => none
  | 0x2d :: digits =>
    match word? digits with
    | some n => (negated? n).map .signed
    | none => (real? t).map .real
  | _ =>
    match word? t with
    | some n => some (.unsigned n)
    | none => (real? t).map .real

/-- The 64 bit number that a text without its sign denotes. -/
def magnitude? (t : Bytes) : Option Nat :=
  match word? t with
  | some n => some n
  | none =>
    match Numeral.read .word t with
    | .ok x => x.word?
    | .error _ => none

/-- Reads a whole number: tells whether it has a minus sign, and its magnitude.  Nothing reads as
0. -/
def integer? (t : Bytes) : Option (Bool × Nat) :=
  match t with
  | 0x2d :: rest => if rest = [] then none else (magnitude? rest).map (true, ·)
  | _ => (magnitude? t).map (false, ·)

end SpanLisp.Json
