import SpanLisp.Snapshot.Stored
import SpanLisp.Snapshot.Word
import SpanLisp.Text.Quoted

/-!
# MessagePack

The compact format of snapshots.  Bindings are a map from names to values, and a value is an array
of two: the number of its kind and its payload.  Writers put their bytes in front of what follows
(`Pack.writeStored`, `Pack.writeEntries`) and use the shortest form; readers take their bytes off
the front and accept every form.
-/

namespace SpanLisp.Pack

/-! ### Families of items -/

/-- The families of MessagePack items. -/
inductive Family where
  /-- The null item. -/
  | nil
  /-- Truth values. -/
  | bool
  /-- Integers in a signed form. -/
  | int
  /-- Integers in an unsigned form. -/
  | uint
  /-- Single floats. -/
  | float32
  /-- Double floats. -/
  | float64
  /-- Strings. -/
  | str
  /-- Binary strings. -/
  | bin
  /-- Maps. -/
  | map
  /-- Arrays. -/
  | array
  /-- Extensions. -/
  | ext
  /-- The byte that starts no item. -/
  | invalid
  deriving DecidableEq, Repr

/-- The name of a family. -/
def Family.name : Family → Bytes
  | nil => utf8 "nil"
  | bool => utf8 "bool"
  | int => utf8 "int"
  | uint => utf8 "uint"
  | float32 => utf8 "float32"
  | float64 => utf8 "float64"
  | str => utf8 "str"
  | bin => utf8 "bin"
  | map => utf8 "map"
  | array => utf8 "array"
  | ext => utf8 "ext"
  | invalid => utf8 "<invalid>"

/-- The family that a first byte announces. -/
def familyOf (b : UInt8) : Family :=
  if b < 0x80 || 0xe0 ≤ b then .int
  else if b < 0x90 then .map
  else if b < 0xa0 then .array
  else if b < 0xc0 then .str
  else if b = 0xc0 then .nil
  else if b = 0xc1 then .invalid
  else if b < 0xc4 then .bool
  else if b < 0xc7 then .bin
  else if b < 0xca then .ext
  else if b = 0xca then .float32
  else if b = 0xcb then .float64
  else if b < 0xd0 then .uint
  else if b < 0xd4 then .int
  else if b < 0xd9 then .ext
  else if b < 0xdc then .str
  else if b < 0xde then .array
  else .map

/-- Why bytes are no bindings. -/
inductive Failure where
  /-- The bytes end too early. -/
  | short
  /-- Another family was expected. -/
  | wrongFamily (found wanted : Family)
  /-- A byte that starts no item. -/
  | badStart (b : UInt8)
  /-- An unsigned number beyond the signed range. -/
  | overflow (n : Nat)
  /-- A value that is no array of two. -/
  | fieldCount (n : Nat)
  /-- Bytes after the last binding. -/
  | trailing (n : Nat)
  deriving DecidableEq, Repr

/-- What a failure reads like. -/
def Failure.message : Failure → Bytes
  | short => utf8 "msgp: too few bytes left to read object"
  | wrongFamily found wanted =>
    utf8 "msgp: attempted to decode type " ++ Quoted.encode found.name ++
      utf8 " with method for " ++ Quoted.encode wanted.name
  | badStart b => utf8 "msgp: unrecognized type prefix 0x" ++ Hex.ofByte b
  | overflow n => utf8 "msgp: " ++ Decimal.ofNat n ++ utf8 " overflows uint64"
  | fieldCount n => utf8 "snapshot value has " ++ Decimal.ofNat n ++ utf8 " fields, want 2"
  | trailing n => Decimal.ofNat n ++ utf8 " trailing bytes after snapshot bindings"

/-- The failure to find the family `wanted` at the byte `b`. -/
def mismatch (wanted : Family) (b : UInt8) : Failure :=
  if familyOf b = .invalid then .badStart b else .wrongFamily (familyOf b) wanted

/-! ### Words -/

/-- Takes `k` bytes off the front. -/
def take (k : Nat) (t : Bytes) : Except Failure (Bytes × Bytes) :=
  if t.length < k then .error .short else .ok (t.take k, t.drop k)

/-- Takes a number of `k` bytes off the front. -/
def readWord (k : Nat) (t : Bytes) : Except Failure (Nat × Bytes) :=
  (take k t).map fun r => (Word.value r.1, r.2)

/-! ### Items -/

/-- Writes a number in two's complement of `k` bytes. -/
def writeSigned (k : Nat) (n : Int) (rest : Bytes) : Bytes :=
  Word.write k (Word.ofInt k n) rest

/-- Writes an integer in its shortest signed form. -/
def writeInt (n : Int64) (rest : Bytes) : Bytes :=
  let i := n.toInt
  if -32 ≤ i ∧ i ≤ 127 then writeSigned 1 i rest
  else if -128 ≤ i ∧ i < 0 then 0xd0 :: writeSigned 1 i rest
  else if -32768 ≤ i ∧ i ≤ 32767 then 0xd1 :: writeSigned 2 i rest
  else if -2147483648 ≤ i ∧ i ≤ 2147483647 then 0xd2 :: writeSigned 4 i rest
  else 0xd3 :: writeSigned 8 i rest

/-- Takes a signed number of `k` bytes off the front. -/
def readSigned (k : Nat) (t : Bytes) : Except Failure (Int64 × Bytes) :=
  (readWord k t).map fun r => (Int64.ofInt (Word.signed k r.1), r.2)

/-- Takes an unsigned number of `k` bytes off the front, which has to fit in the signed range. -/
def readUnsigned (k : Nat) (t : Bytes) : Except Failure (Int64 × Bytes) :=
  match readWord k t with
  | .error e => .error e
  | .ok (n, rest) => if Word.half ≤ n then .error (.overflow n) else .ok (Int64.ofNat n, rest)

/-- Takes an integer of any form off the front. -/
def readInt : Bytes → Except Failure (Int64 × Bytes)
  | [] => .error .short
  | b :: rest =>
    if b < 0x80 then .ok (Int64.ofNat b.toNat, rest)
    else if 0xe0 ≤ b then .ok (Int64.ofInt (b.toNat - 256), rest)
    else if b = 0xd0 then readSigned 1 rest
    else if b = 0xd1 then readSigned 2 rest
    else if b = 0xd2 then readSigned 4 rest
    else if b = 0xd3 then readSigned 8 rest
    else if b = 0xcc then readUnsigned 1 rest
    else if b = 0xcd then readUnsigned 2 rest
    else if b = 0xce then readUnsigned 4 rest
    else if b = 0xcf then readUnsigned 8 rest
    else .error (mismatch .int b)

/-- Writes the length of a string and its bytes. -/
def writeString (s : Bytes) (rest : Bytes) : Bytes :=
  let n := s.length
  let body := s ++ rest
  if n < 32 then UInt8.ofNat (0xa0 + n) :: body
  else if n < 256 then 0xd9 :: Word.write 1 n body
  else if n < 65536 then 0xda :: Word.write 2 n body
  else 0xdb :: Word.write 4 n body

/-- Takes the bytes that a length of `k` bytes announces off the front. -/
def readSized (k : Nat) (t : Bytes) : Except Failure (Bytes × Bytes) :=
  match readWord k t with
  | .error e => .error e
  | .ok (n, rest) => take n rest

/-- Takes a string off the front.  A first byte of no family counts as a wrong family here. -/
def readString : Bytes → Except Failure (Bytes × Bytes)
  | [] => .error .short
  | b :: rest =>
    if 0xa0 ≤ b && b < 0xc0 then take (b.toNat - 0xa0) rest
    else if b = 0xd9 then readSized 1 rest
    else if b = 0xda then readSized 2 rest
    else if b = 0xdb then readSized 4 rest
    else .error (.wrongFamily (familyOf b) .str)

/-- Writes a truth value. -/
def writeBool (b : Bool) (rest : Bytes) : Bytes := (if b then 0xc3 else 0xc2) :: rest

/-- Takes a truth value off the front. -/
def readBool : Bytes → Except Failure (Bool × Bytes)
  | [] => .error .short
  | b :: rest =>
    if b = 0xc2 then .ok (false, rest)
    else if b = 0xc3 then .ok (true, rest)
    else .error (mismatch .bool b)

/-- Takes the null item off the front. -/
def readNil : Bytes → Except Failure Bytes
  | [] => .error .short
  | b :: rest => if b = 0xc0 then .ok rest else .error (mismatch .nil b)

/-- Writes the head of an array with `n` elements. -/
def writeArrayHead (n : Nat) (rest : Bytes) : Bytes :=
  if n < 16 then UInt8.ofNat (0x90 + n) :: rest
  else if n < 65536 then 0xdc :: Word.write 2 n rest
  else 0xdd :: Word.write 4 n rest

/-- Takes the head of an array off the front. -/
def readArrayHead : Bytes → Except Failure (Nat × Bytes)
  | [] => .error .short
  | b :: rest =>
    if 0x90 ≤ b && b < 0xa0 then .ok (b.toNat - 0x90, rest)
    else if b = 0xdc then readWord 2 rest
    else if b = 0xdd then readWord 4 rest
    else .error (mismatch .array b)

/-- Writes the head of a map with `n` pairs. -/
def writeMapHead (n : Nat) (rest : Bytes) : Bytes :=
  if n < 16 then UInt8.ofNat (0x80 + n) :: rest
  else if n < 65536 then 0xde :: Word.write 2 n rest
  else 0xdf :: Word.write 4 n rest

/-- Takes the head of a map off the front. -/
def readMapHead : Bytes → Except Failure (Nat × Bytes)
  | [] => .error .short
  | b :: rest =>
    if 0x80 ≤ b && b < 0x90 then .ok (b.toNat - 0x80, rest)
    else if b = 0xde then readWord 2 rest
    else if b = 0xdf then readWord 4 rest
    else .error (mismatch .map b)

/-! ### Values and bindings -/

mutual

/-- Writes a stored value in front of `rest`. -/
def writeStored (s : Stored) (rest : Bytes) : Bytes :=
  writeArrayHead 2 <| writeInt s.kindCode <|
    match s with
    | .bool b => writeBool b rest
    | .integer n => writeInt n rest
    | .string t | .keyword t | .function t => writeString t rest
    | .vector elems => writeArrayHead elems.length (writeAll elems rest)
    | .nil | .unlisted _ => 0xc0 :: rest

/-- Writes stored values one after the other in front of `rest`. -/
def writeAll : List Stored → Bytes → Bytes
  | [], rest => rest
  | s :: ss, rest => writeStored s (writeAll ss rest)

end

/-- Takes `n` things off the front. -/
def readMany {α : Type} (read : Bytes → Except Failure (α × Bytes)) :
    Nat → Bytes → Except Failure (List α × Bytes)
  | 0, t => .ok ([], t)
  | n + 1, t =>
    match read t with
    | .error e => .error e
    | .ok (a, rest) => (readMany read n rest).map fun r => (a :: r.1, r.2)

/-- Takes a number of things off the front that cannot exceed the number of bytes left. -/
def readCounted {α : Type} (read : Bytes → Except Failure (α × Bytes)) (n : Nat) (t : Bytes) :
    Except Failure (List α × Bytes) :=
  if t.length < n then .error .short else readMany read n t

/-- Takes the payload of a kind off the front, with `readElem` for the elements of a vector. -/
def readPayload (readElem : Bytes → Except Failure (Stored × Bytes)) (kind : Int64) (t : Bytes) :
    Except Failure (Stored × Bytes) :=
  if kind = 1 then (readBool t).map fun r => (.bool r.1, r.2)
  else if kind = 3 then (readInt t).map fun r => (.integer r.1, r.2)
  else if kind = 5 then (readString t).map fun r => (.string r.1, r.2)
  else if kind = 4 then (readString t).map fun r => (.keyword r.1, r.2)
  else if kind = 2 then (readString t).map fun r => (.function r.1, r.2)
  else if kind = 6 then
    match readArrayHead t with
    | .error e => .error e
    | .ok (n, rest) => (readCounted readElem n rest).map fun r => (.vector r.1, r.2)
  else (readNil t).map fun rest => (if kind = 0 then .nil else .unlisted kind, rest)

/-- Takes a stored value off the front.  Every level of nesting takes bytes, so `fuel` above their
number suffices. -/
def readStored : (fuel : Nat) → Bytes → Except Failure (Stored × Bytes)
  | 0, _ => .error .short
  | fuel + 1, t =>
    match readArrayHead t with
    | .error e => .error e
    | .ok (n, rest) =>
      if n ≠ 2 then .error (.fieldCount n)
      else match readInt rest with
      | .error e => .error e
      | .ok (kind, rest) => readPayload (readStored fuel) kind rest

/-- Writes bindings one after the other in front of `rest`. -/
def writePairs : List Entry → Bytes → Bytes
  | [], rest => rest
  | e :: es, rest => writeString e.name (writeStored e.value (writePairs es rest))

/-- The bytes of bindings. -/
def writeEntries (es : List Entry) : Bytes := writeMapHead es.length (writePairs es [])

/-- Takes a binding off the front. -/
def readEntry (fuel : Nat) (t : Bytes) : Except Failure (Entry × Bytes) :=
  match readString t with
  | .error e => .error e
  | .ok (name, rest) => (readStored fuel rest).map fun r => (⟨name, r.1⟩, r.2)

/-- The bindings that bytes spell, with nothing after them. -/
def readEntries (t : Bytes) : Except Failure (List Entry) :=
  match readMapHead t with
  | .error e => .error e
  | .ok (n, rest) =>
    match readCounted (readEntry (t.length + 1)) n rest with
    | .error e => .error e
    | .ok (es, rest) => if rest.isEmpty then .ok es else .error (.trailing rest.length)

end SpanLisp.Pack
