/-!
# Texts as bytes

Source texts, names and files are sequences of bytes (`Bytes`), usually UTF-8 but never required
to be.  `utf8` spells a literal as bytes, `Bytes.cut` splits at the first occurrence of a byte and
`Bytes.lower` folds ASCII capitals.
-/

namespace SpanLisp

/-- A text: any sequence of bytes. -/
abbrev Bytes := List UInt8

/-- The UTF-8 bytes of a string. -/
def utf8 (s : String) : Bytes := s.toUTF8.data.toList

namespace Bytes

/-- Line feed. -/
def lineFeed : UInt8 := 0x0a

/-- Carriage return. -/
def carriageReturn : UInt8 := 0x0d

/-- The bytes before the first `sep` and, if there is one, the bytes after it. -/
def cut (sep : UInt8) : Bytes → Bytes × Option Bytes
  | [] => ([], none)
  | b :: bs => if b = sep then ([], some bs) else
    let r := cut sep bs
    (b :: r.1, r.2)

/-- The byte with an ASCII capital letter replaced by its small letter. -/
def lowerByte (b : UInt8) : UInt8 := if 0x41 ≤ b ∧ b ≤ 0x5a then b + 0x20 else b

/-- The text with its ASCII capital letters replaced by small ones. -/
def lower (t : Bytes) : Bytes := t.map lowerByte

/-- `t` without its last byte if that byte is `b`. -/
def dropTrailing (b : UInt8) (t : Bytes) : Bytes := if t.getLast? = some b then t.dropLast else t

/-- `n` copies of a byte. -/
def copies (n : Nat) (b : UInt8) : Bytes := List.replicate n b

/-- The parts of a list of texts with a separator between neighbours. -/
def joinWith (sep : Bytes) : List Bytes → Bytes
  | [] => []
  | [t] => t
  | t :: ts => t ++ sep ++ joinWith sep ts

/-- Splits at every `sep`; a text without it is one part. -/
def splitOn (sep : UInt8) : Bytes → List Bytes
  | [] => [[]]
  | b :: bs => if b = sep then [] :: splitOn sep bs else
    match splitOn sep bs with
    | [] => [[b]]
    | p :: ps => (b :: p) :: ps

/-- The order of names: byte by byte, a shorter text before its extensions. -/
def atMost (a b : Bytes) : Bool := !decide (b < a)

end Bytes

end SpanLisp
