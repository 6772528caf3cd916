import SpanLisp.Text.Decimal
import SpanLisp.Text.Quoted

/-!
# Session identifiers

A `Uuid` is sixteen bytes, written as hexadecimal digits in groups of 8-4-4-4-12.  `Uuid.parse`
also reads the digits without dashes, the groups after `urn:uuid:` and the groups between any two
bytes, such as braces.
-/

namespace SpanLisp

/-- Why a text is no identifier. -/
inductive Uuid.Failure where
  /-- No form has this many bytes. -/
  | length (n : Nat)
  /-- A dash or a digit is missing. -/
  | format
  /-- The text has the length of a URN but does not start like one. -/
  | urn (start : Bytes)
  deriving DecidableEq, Repr

namespace Uuid

/-- What a failure reads like. -/
def Failure.message : Failure → Bytes
  | length n => utf8 "invalid UUID length: " ++ Decimal.ofNat n
  | format => utf8 "invalid UUID format"
  | urn start => utf8 "invalid urn prefix: " ++ Quoted.encode start

/-- The digits without the dashes, which have to stand after 8, 12, 16 and 20 of them. -/
def undash (t : Bytes) : Option Bytes :=
  let dash : Option UInt8 := some 0x2d
  if t[8]? = dash ∧ t[13]? = dash ∧ t[18]? = dash ∧ t[23]? = dash then
    some (t.take 8 ++ (t.drop 9).take 4 ++ (t.drop 14).take 4 ++ (t.drop 19).take 4 ++
      (t.drop 24).take 12)
  else none

/-- Reads groups of digits with dashes. -/
def grouped (t : Bytes) : Except Failure Bytes :=
  match (undash t).bind Hex.toBytes? with
  | some id => .ok id
  | none => .error .format

/-- What a URN of an identifier starts with. -/
def urnStart : Bytes := utf8 "urn:uuid:"

/-- Reads an identifier in any of its forms. -/
def parse (t : Bytes) : Except Failure Bytes :=
  if t.length = 36 then grouped t
  else if t.length = 45 then
    if Bytes.lower (t.take 9) = urnStart then grouped (t.drop 9) else .error (.urn (t.take 9))
  else if t.length = 38 then grouped (t.drop 1)
  else if t.length = 32 then
    match Hex.toBytes? t with
    | some id => .ok id
    | none => .error .format
  else .error (.length t.length)

/-- The identifier in groups of small digits. -/
def text (id : Bytes) : Bytes :=
  let h := Hex.ofBytes id
  h.take 8 ++ utf8 "-" ++ (h.drop 8).take 4 ++ utf8 "-" ++ (h.drop 12).take 4 ++ utf8 "-" ++
    (h.drop 16).take 4 ++ utf8 "-" ++ h.drop 20

end Uuid

end SpanLisp
