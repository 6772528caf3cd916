import SpanLisp.Json
import SpanLisp.Text.Decimal
import SpanLisp.Text.Hex
import SpanLisp.Text.Utf8
import SpanLisp.Value.Printer

/-!
# Writing JSON

`Json.write` writes a datum without blanks in front of what follows it.  In a string, the quote,
the backslash and the control characters are escaped, and so are U+2028 and U+2029; a byte outside
UTF-8 becomes an escaped U+FFFD; everything else stands as it is.  `Value.toJson` turns a value
into data, keywords and functions into the strings that display them.
-/

namespace SpanLisp

namespace Json

/-- The escape of a control character. -/
def escapeControl (n : Nat) : Bytes :=
  if n = 0x0a then utf8 "\\n"
  else if n = 0x0d then utf8 "\\r"
  else if n = 0x09 then utf8 "\\t"
  else if n = 0x08 then utf8 "\\b"
  else if n = 0x0c then utf8 "\\f"
  else utf8 "\\u00" ++ Hex.ofByte (UInt8.ofNat n)

/-- A character of a string, escaped where it has to be. -/
def escapeRune (r : Rune) : Bytes :=
  let n := r.char.toNat
  if n = 0x22 then utf8 "\\\""
  else if n = 0x5c then utf8 "\\\\"
  else if n < 0x20 then escapeControl n
  else if n = 0x2028 then utf8 "\\u2028"
  else if n = 0x2029 then utf8 "\\u2029"
  else if Utf8.isStray r then utf8 "\\uFFFD"
  else r.bytes

/-- A string with its quotes. -/
def quote (s : Bytes) : Bytes := 0x22 :: (Utf8.runes s).flatMap escapeRune ++ [0x22]

/-- The text of a scalar.  Numbers with a fraction are only read, never written. -/
def Scalar.render : Scalar → Bytes
  | .null | .real _ => utf8 "null"
  | .bool b => if b then utf8 "true" else utf8 "false"
  | .unsigned n => Decimal.ofNat n
  | .signed n => Decimal.ofInt n
  | .text s => quote s

mutual

/-- Writes a datum in front of `rest`. -/
def write : Json → Bytes → Bytes
  | scalar x, rest => x.render ++ rest
  | array xs, rest => 0x5b :: writeElems xs (0x5d :: rest)
  | object fs, rest => 0x7b :: writeFields fs (0x7d :: rest)

/-- Writes data with commas between them in front of `rest`. -/
def writeElems : List Json → Bytes → Bytes
  | [], rest => rest
  | [x], rest => write x rest
  | x :: xs, rest => write x (0x2c :: writeElems xs rest)

/-- Writes the fields of a map in front of `rest`. -/
def writeFields : List (Scalar × Json) → Bytes → Bytes
  | [], rest => rest
  | [(k, x)], rest => k.render ++ 0x3a :: write x rest
  | (k, x) :: fs, rest => k.render ++ 0x3a :: write x (0x2c :: writeFields fs rest)

end

/-- The text of a datum. -/
def render (x : Json) : Bytes := x.write []

end Json

namespace Value

mutual

/-- The data that a value stands for, its keywords and functions as they are displayed. -/
def toJson (names : Interner) : Value → Json
  | bool b => .scalar (.bool b)
  | integer n => .scalar (.signed n.toInt)
  | string s => .scalar (.text s)
  | keyword sym => .scalar (.text (keywordText names sym))
  | function index => .scalar (.text (functionText index))
  | vector vs => .array (toJsonAll names vs)
  | nil | unlisted _ => .null

/-- The data of several values. -/
def toJsonAll (names : Interner) : List Value → List Json
  | [] => []
  | v :: vs => toJson names v :: toJsonAll names vs

end

/-- A value as JSON text. -/
def json (names : Interner) (v : Value) : Except Defect Bytes :=
  (v.check names).map fun _ => (v.toJson names).render

end Value

end SpanLisp
