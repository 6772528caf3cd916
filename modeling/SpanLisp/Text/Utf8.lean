import SpanLisp.Text.Bytes

/-!
# Characters of a text

A text is read as characters by `runes`.  Each `Rune` keeps the bytes it was read from, so no byte
is lost (`flatMap_bytes_runes`): a well-formed UTF-8 sequence gives its character, and every byte
that starts no such sequence stands alone as U+FFFD.  `encode` writes a character and `isUtf8`
tells whether a text is UTF-8 throughout.
-/

namespace SpanLisp

/-- A character with the bytes that spell it. -/
structure Rune where
  /-- The character, U+FFFD for a byte outside UTF-8. -/
  char : Char
  /-- The bytes it was read from. -/
  bytes : Bytes
  deriving DecidableEq, Repr

namespace Utf8

/-- The character that stands for a byte outside UTF-8. -/
def replacement : Char := Char.ofNat 0xfffd

/-- Is the byte a continuation byte? -/
def isTail (b : UInt8) : Bool := 0x80 ≤ b && b ≤ 0xbf

/-- Can `second` follow the first byte `first` of a sequence of two or more bytes?  The narrower
ranges after E0, ED, F0 and F4 keep out overlong forms, surrogates and numbers above 10FFFF. -/
def follows (first second : UInt8) : Bool :=
  if first = 0xe0 then 0xa0 ≤ second && second ≤ 0xbf
  else if first = 0xed then 0x80 ≤ second && second ≤ 0x9f
  else if first = 0xf0 then 0x90 ≤ second && second ≤ 0xbf
  else if first = 0xf4 then 0x80 ≤ second && second ≤ 0x8f
  else 0xc2 ≤ first && first ≤ 0xf4 && isTail second

/-- The payload of a continuation byte. -/
def tailBits (b : UInt8) : Nat := b.toNat % 64

/-- Reads the character at the front of the text `b :: rest`, together with the number of bytes
of `rest` that belong to it.  A byte that starts no well-formed sequence is U+FFFD by itself. -/
def decode (b : UInt8) (rest : Bytes) : Char × Nat :=
  if b < 0x80 then (Char.ofNat b.toNat, 0) else
  match rest with
  | [] => (replacement, 0)
  | b₁ :: r₁ =>
    if follows b b₁ = false then (replacement, 0)
    else if b < 0xe0 then (Char.ofNat (b.toNat % 32 * 64 + tailBits b₁), 1) else
    match r₁ with
    | [] => (replacement, 0)
    | b₂ :: r₂ =>
      if isTail b₂ = false then (replacement, 0)
      else if b < 0xf0 then
        (Char.ofNat ((b.toNat % 16 * 64 + tailBits b₁) * 64 + tailBits b₂), 2) else
      match r₂ with
      | [] => (replacement, 0)
      | b₃ :: _ =>
        if isTail b₃ = false then (replacement, 0)
        else (Char.ofNat
          (((b.toNat % 8 * 64 + tailBits b₁) * 64 + tailBits b₂) * 64 + tailBits b₃), 3)

/-- The characters of a text of which the first `skip` bytes have been read already. -/
def runesFrom : Nat → Bytes → List Rune
  | _, [] => []
  | skip + 1, _ :: bs => runesFrom skip bs
  | 0, b :: bs =>
    let d := decode b bs
    ⟨d.1, b :: bs.take d.2⟩ :: runesFrom d.2 bs

/-- The characters of a text. -/
def runes (t : Bytes) : List Rune := runesFrom 0 t

/-- Is this rune a byte outside UTF-8?  A U+FFFD that the text itself spells takes three bytes. -/
def isStray (r : Rune) : Bool := r.char = replacement && r.bytes.length = 1

/-- Is the text UTF-8 throughout? -/
def isUtf8 (t : Bytes) : Bool := (runes t).all (!isStray ·)

/-- The UTF-8 bytes of a character. -/
def encode (c : Char) : Bytes := String.utf8EncodeChar c

/-! ### No byte is lost -/

theorem flatMap_bytes_runesFrom (n : Nat) (t : Bytes) :
    (runesFrom n t).flatMap Rune.bytes = t.drop n := by
  fun_induction runesFrom n t with
  | case1 n => simp
  | case2 n b bs ih => simpa using ih
  | case3 b bs d ih => simp [ih]

theorem flatMap_bytes_runes (t : Bytes) : (runes t).flatMap Rune.bytes = t := by
  simpa [runes] using flatMap_bytes_runesFrom 0 t

end Utf8

end SpanLisp
