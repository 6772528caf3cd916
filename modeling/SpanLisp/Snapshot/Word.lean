import SpanLisp.Text.Bytes

/-!
# Words

Numbers of a fixed width in bytes, highest byte first.  `Word.write` puts the bytes of a number in
front of what follows and `Word.value` reads them; `Word.signed` reads two's complement.
-/

namespace SpanLisp.Word

/-- The number of words of `k` bytes. -/
def count : (k : Nat) → Nat
  | 0 => 1
  | k + 1 => 256 * count k

/-- The number of words of eight bytes from zero up, in two's complement. -/
def half : Nat := 9223372036854775808

/-- The lowest `k` bytes of a number, highest first, in front of `rest`. -/
def write : (k n : Nat) → Bytes → Bytes
  | 0, _, rest => rest
  | k + 1, n, rest => write k (n / 256) (UInt8.ofNat n :: rest)

/-- The number that bytes spell, highest first. -/
def value (t : Bytes) : Nat := t.foldl (fun n b => 256 * n + b.toNat) 0

/-- The word of `k` bytes read as two's complement. -/
def signed (k n : Nat) : Int := if 2 * n < count k then n else (n : Int) - (count k : Int)

/-- The word of `k` bytes that a number has in two's complement. -/
def ofInt (k : Nat) (n : Int) : Nat := (n % (count k : Int)).toNat

end SpanLisp.Word
