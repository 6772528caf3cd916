import SpanLisp.Text.Bytes

/-!
# The checksum of a snapshot

BLAKE2b with a digest of eight bytes and no key, read as a little-endian word.  `Checksum.ofBytes`
is the checksum.
-/

namespace SpanLisp.Checksum

/-- The initial words of the hash state. -/
def initial : Array UInt64 :=
  #[0x6a09e667f3bcc908, 0xbb67ae8584caa73b, 0x3c6ef372fe94f82b, 0xa54ff53a5f1d36f1,
    0x510e527fade682d1, 0x9b05688c2b3e6c1f, 0x1f83d9abfb41bd6b, 0x5be0cd19137e2179]

/-- The order in which each round takes the words of a block. -/
def schedule : List (List Nat) :=
  [[0, 1, 2, 3, 4, 5, 6, 7, 8, 9, 10, 11, 12, 13, 14, 15],
    [14, 10, 4, 8, 9, 15, 13, 6, 1, 12, 0, 2, 11, 7, 5, 3],
    [11, 8, 12, 0, 5, 2, 15, 13, 10, 14, 3, 6, 7, 1, 9, 4],
    [7, 9, 3, 1, 13, 12, 11, 14, 2, 6, 5, 10, 4, 0, 15, 8],
    [9, 0, 5, 7, 2, 4, 10, 15, 14, 1, 11, 12, 6, 8, 3, 13],
    [2, 12, 6, 10, 0, 11, 8, 3, 4, 13, 7, 5, 15, 14, 1, 9],
    [12, 5, 1, 15, 14, 13, 4, 10, 0, 7, 6, 3, 9, 2, 8, 11],
    [13, 11, 7, 14, 12, 1, 3, 9, 5, 0, 15, 4, 8, 6, 2, 10],
    [6, 15, 14, 9, 11, 3, 0, 8, 12, 2, 13, 7, 1, 4, 10, 5],
    [10, 2, 8, 4, 7, 6, 1, 5, 15, 11, 9, 14, 3, 12, 13, 0],
    [0, 1, 2, 3, 4, 5, 6, 7, 8, 9, 10, 11, 12, 13, 14, 15],
    [14, 10, 4, 8, 9, 15, 13, 6, 1, 12, 0, 2, 11, 7, 5, 3]]

/-- The four words that each step of a round mixes: columns, then diagonals. -/
def lanes : List (Nat × Nat × Nat × Nat) :=
  [(0, 4, 8, 12), (1, 5, 9, 13), (2, 6, 10, 14), (3, 7, 11, 15),
    (0, 5, 10, 15), (1, 6, 11, 12), (2, 7, 8, 13), (3, 4, 9, 14)]

/-- Rotates a word to the right by `n` bits, `0 < n < 64`. -/
def rotate (x : UInt64) (n : UInt64) : UInt64 := (x >>> n) ||| (x <<< (64 - n))

/-- Mixes two message words into four words of the state. -/
def mix (v : Array UInt64) (lane : Nat × Nat × Nat × Nat) (x y : UInt64) : Array UInt64 :=
  let (ia, ib, ic, id) := lane
  let a := v.getD ia 0 + v.getD ib 0 + x
  let d := rotate (v.getD id 0 ^^^ a) 32
  let c := v.getD ic 0 + d
  let b := rotate (v.getD ib 0 ^^^ c) 24
  let a := a + b + y
  let d := rotate (d ^^^ a) 16
  let c := c + d
  let b := rotate (b ^^^ c) 63
  (((v.setIfInBounds ia a).setIfInBounds ib b).setIfInBounds ic c).setIfInBounds id d

/-- One round: each lane takes the next two message words. -/
def round (block : Array UInt64) : List (Nat × Nat × Nat × Nat) → List Nat → Array UInt64 →
    Array UInt64
  | lane :: ls, i :: j :: order, v =>
    round block ls order (mix v lane (block.getD i 0) (block.getD j 0))
  | _, _, v => v

/-- A little-endian word. -/
def word (t : Bytes) : UInt64 := t.foldr (fun b n => n * 256 + b.toUInt64) 0

/-- The little-endian words of a text. -/
def words : Nat → Bytes → List UInt64
  | 0, _ => []
  | n + 1, t => word (t.take 8) :: words n (t.drop 8)

/-- Works a block into the state; `total` bytes have been read up to its end. -/
def compress (h : Array UInt64) (block : Bytes) (total : Nat) (last : Bool) : Array UInt64 :=
  let m := (words 16 block).toArray
  let v := h ++ initial
  let v := v.modify 12 (· ^^^ UInt64.ofNat total)
  let v := if last then v.modify 14 (~~~ ·) else v
  let v := schedule.foldl (fun v order => round m lanes order v) v
  (List.range 8).toArray.map fun i => h.getD i 0 ^^^ v.getD i 0 ^^^ v.getD (i + 8) 0

/-- Works the blocks of a text into the state; the last one may be short. -/
def absorb (h : Array UInt64) (total : Nat) (t : Bytes) : Array UInt64 :=
  if (t.drop 128).isEmpty then compress h t (total + t.length) true
  else absorb (compress h (t.take 128) (total + 128) false) (total + 128) (t.drop 128)
termination_by t.length
decreasing_by
  rename_i hmore
  have : ¬ t.length ≤ 128 := fun hle => hmore (by simp [List.drop_eq_nil_of_le hle])
  simp only [List.length_drop]
  omega

/-- The state for a digest of eight bytes without a key. -/
def start : Array UInt64 := initial.modify 0 (· ^^^ 0x01010008)

/-- The checksum of a text. -/
def ofBytes (t : Bytes) : UInt64 := (absorb start 0 t).getD 0 0

/-- The eight bytes of a word, lowest first. -/
def toBytes (n : UInt64) : Bytes :=
  (List.range 8).map fun i => (n >>> UInt64.ofNat (8 * i)).toUInt8

/-- The word that eight bytes spell, lowest first. -/
def ofLittleEndian (t : Bytes) : UInt64 := word t

end SpanLisp.Checksum
