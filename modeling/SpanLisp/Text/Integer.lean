import SpanLisp.Text.Hex

/-!
# Integer literals

`Integer.parse` reads a 64 bit integer with an optional sign.  After `0b`, `0o` or `0`, and `0x` the
digits are those of base 2, 8 and 16; underscores may separate digits, and the marks of the base
from the first of them.
-/

namespace SpanLisp.Integer

/-- Why a text is no 64 bit integer. -/
inductive Failure where
  /-- The text is no integer literal. -/
  | malformed
  /-- The integer is too large; the nearest one is given. -/
  | outOfRange (nearest : Int)
  deriving DecidableEq, Repr

/-- The underscore. -/
def underscore : UInt8 := 0x5f

/-- The value of a digit or a letter after the digits. -/
def digit? (b : UInt8) : Option Nat :=
  let c := Bytes.lowerByte b
  if 48 ≤ b ∧ b ≤ 57 then some (b.toNat - 48)
  else if 0x61 ≤ c ∧ c ≤ 0x7a then some (c.toNat - 87)
  else none

/-- Bounds of the words that digits are collected in. -/
def maxWord : Nat := 18446744073709551615

/-- Collects the digits of a number, from left to right up to a mistake or to more than a word. -/
def collect (base : Nat) : Nat → Bytes → Except Failure Nat
  | n, [] => .ok n
  | n, b :: rest =>
    if b = underscore then collect base n rest
    else match digit? b with
    | none => .error .malformed
    | some d =>
      if base ≤ d then .error .malformed
      else if maxWord < base * n + d then .error (.outOfRange maxWord)
      else collect base (base * n + d) rest

/-- Do underscores stand only behind digits and in front of digits?  `ready` tells whether one may
come next, `pending` whether one has just come. -/
def separated (hex : Bool) : (ready pending : Bool) → Bytes → Bool
  | _, pending, [] => !pending
  | ready, pending, b :: rest =>
    if 48 ≤ b ∧ b ≤ 57 ∨ (hex ∧ 0x61 ≤ Bytes.lowerByte b ∧ Bytes.lowerByte b ≤ 0x66) then
      separated hex true false rest
    else if b = underscore then ready && separated hex false true rest
    else !pending && separated hex false false rest

/-- The base and the digits of a number without its sign. -/
def split (t : Bytes) : Nat × Bytes :=
  match t with
  | 0x30 :: mark :: b :: rest =>
    let c := Bytes.lowerByte mark
    if c = 0x62 then (2, b :: rest)
    else if c = 0x6f then (8, b :: rest)
    else if c = 0x78 then (16, b :: rest)
    else (8, mark :: b :: rest)
  | 0x30 :: rest => (8, rest)
  | _ => (10, t)

/-- Are the underscores of a number without its sign in place? -/
def underscoresFit (t : Bytes) : Bool :=
  match t with
  | 0x30 :: mark :: rest =>
    let c := Bytes.lowerByte mark
    if c = 0x62 ∨ c = 0x6f ∨ c = 0x78 then separated (c = 0x78) true false rest
    else separated false false false t
  | _ => separated false false false t

/-- Reads a number without a sign. -/
def parseWord (t : Bytes) : Except Failure Nat :=
  if t.isEmpty then .error .malformed
  else
    let (base, digits) := split t
    match collect base 0 digits with
    | .error e => .error e
    | .ok n =>
      if digits.contains underscore ∧ !underscoresFit t then .error .malformed else .ok n

/-- Gives a number its sign, unless it is out of range. -/
def signed (negative : Bool) (n : Nat) : Except Failure Int :=
  if negative then
    if 9223372036854775808 < n then .error (.outOfRange (-9223372036854775808))
    else .ok (-(n : Int))
  else
    if 9223372036854775807 < n then .error (.outOfRange 9223372036854775807) else .ok n

/-- Splits a sign off; tells whether it is a minus sign. -/
def cutSign (t : Bytes) : Bool × Bytes :=
  match t with
  | 0x2b :: rest => (false, rest)
  | 0x2d :: rest => (true, rest)
  | _ => (false, t)

/-- Reads a 64 bit integer. -/
def parse (t : Bytes) : Except Failure Int :=
  let (negative, word) := cutSign t
  match parseWord word with
  | .ok n => signed negative n
  | .error .malformed => .error .malformed
  | .error (.outOfRange _) => signed negative maxWord

/-- Reads a 64 bit integer whose digits are those of a given base, without underscores. -/
def parseIn? (base : Nat) (t : Bytes) : Option Int :=
  let (negative, digits) := cutSign t
  if digits = [] ∨ digits.contains underscore then none
  else match collect base 0 digits with
  | .ok n => (signed negative n).toOption
  | .error _ => none

end SpanLisp.Integer
