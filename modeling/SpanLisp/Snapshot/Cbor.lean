import SpanLisp.Snapshot.Stored
import SpanLisp.Snapshot.Word
import SpanLisp.Text.Utf8

/-!
# CBOR

The self-describing format of snapshots.  Bindings are an array of maps with the keys `n` and `v`;
a value is a map with the key `k` for the number of its kind and, where they are not empty, the
keys `b`, `i`, `s` and `v` for its payload, in this order of keys.

Writing is canonical.  Reading has two stages: `Cbor.readItem` takes any well-formed item apart
(`Cbor.Item`), at most 32 arrays and maps deep, and `Cbor.entriesOf?` makes bindings of it.  Unknown
keys are ignored, of a repeated key the first counts, and a missing or null field is empty.
-/

namespace SpanLisp.Cbor

/-! ### Writing -/

/-- Writes the head of an item: its major type and its argument in the fewest bytes. -/
def writeHead (major : Nat) (n : Nat) (rest : Bytes) : Bytes :=
  let lead (info : Nat) : UInt8 := UInt8.ofNat (major * 32 + info)
  if n < 24 then lead n :: rest
  else if n < 256 then lead 24 :: Word.write 1 n rest
  else if n < 65536 then lead 25 :: Word.write 2 n rest
  else if n < 4294967296 then lead 26 :: Word.write 4 n rest
  else lead 27 :: Word.write 8 n rest

/-- Writes an integer. -/
def writeInt (n : Int) (rest : Bytes) : Bytes :=
  match n with
  | .ofNat n => writeHead 0 n rest
  | .negSucc n => writeHead 1 n rest

/-- Writes a text. -/
def writeText (s : Bytes) (rest : Bytes) : Bytes := writeHead 3 s.length (s ++ rest)

/-- Writes a key of one letter. -/
def writeKey (letter : UInt8) (rest : Bytes) : Bytes := 0x61 :: letter :: rest

/-- Writes a field with a text, or nothing if the text is empty. -/
def writeTextField (letter : UInt8) (s : Bytes) (rest : Bytes) : Bytes :=
  if s.isEmpty then rest else writeKey letter (writeText s rest)

/-- Writes the field with the number of a kind. -/
def writeKindField (code : Int64) (rest : Bytes) : Bytes := writeKey 0x6b (writeInt code.toInt rest)

/-- The number of fields that are written. -/
def fieldCount : Stored → Nat
  | .nil | .unlisted _ => 1
  | .bool b => if b then 2 else 1
  | .integer n => if n = 0 then 1 else 2
  | .string s | .keyword s | .function s => if s.isEmpty then 1 else 2
  | .vector elems => if elems.isEmpty then 1 else 2

mutual

/-- Writes a stored value in front of `rest`. -/
def writeStored (s : Stored) (rest : Bytes) : Bytes :=
  writeHead 5 (fieldCount s) <|
    match s with
    | .nil | .unlisted _ => writeKindField s.kindCode rest
    | .bool b =>
      if b then writeKey 0x62 (0xf5 :: writeKindField s.kindCode rest)
      else writeKindField s.kindCode rest
    | .integer n =>
      if n = 0 then writeKindField s.kindCode rest
      else writeKey 0x69 (writeInt n.toInt (writeKindField s.kindCode rest))
    | .string t | .keyword t | .function t =>
      writeKindField s.kindCode (writeTextField 0x73 t rest)
    | .vector elems =>
      writeKindField s.kindCode <|
        if elems.isEmpty then rest
        else writeKey 0x76 (writeHead 4 elems.length (writeAll elems rest))

/-- Writes stored values one after the other in front of `rest`. -/
def writeAll : List Stored → Bytes → Bytes
  | [], rest => rest
  | s :: ss, rest => writeStored s (writeAll ss rest)

end

/-- Writes bindings one after the other. -/
def writePairs : List Entry → Bytes → Bytes
  | [], rest => rest
  | e :: es, rest =>
    writeHead 5 2 <| writeKey 0x6e <| writeText e.name <| writeKey 0x76 <|
      writeStored e.value (writePairs es rest)

/-- The bytes of bindings. -/
def writeEntries (es : List Entry) : Bytes := writeHead 4 es.length (writePairs es [])

/-! ### Well-formed items -/

/-- A well-formed item.  Strings are kept in the pieces in which they came. -/
inductive Item where
  /-- A number from 0 up. -/
  | unsigned (n : Nat)
  /-- The number -1 - n. -/
  | negative (n : Nat)
  /-- A byte string. -/
  | bytes (pieces : List Bytes)
  /-- A text. -/
  | text (pieces : List Bytes)
  /-- A sequence. -/
  | array (elems : List Item)
  /-- A map: keys and values in turn. -/
  | map (elems : List Item)
  /-- An item with a remark on its meaning. -/
  | tag (number : Nat) (item : Item)
  /-- One of the simple values, among them the truth values and null. -/
  | simple (n : Nat)
  /-- A number with a fraction. -/
  | float
  deriving Repr

/-- Why bytes are no bindings. -/
inductive Failure where
  /-- There are no bytes. -/
  | empty
  /-- The bytes end too early. -/
  | truncated
  /-- The bytes break a rule of the format or do not spell bindings. -/
  | invalid
  deriving DecidableEq, Repr

/-- The head of an item. -/
structure Head where
  /-- The major type. -/
  major : Nat
  /-- The additional information: 31 for an indefinite length. -/
  info : Nat
  /-- The argument. -/
  argument : Nat

/-- The deepest nesting of arrays, maps and tags upon tags. -/
def maxDepth : Nat := 32

/-- The largest number of elements of an array and of pairs of a map. -/
def maxElements : Nat := 131072

/-- Takes a head off the front.  A simple value below 32 has no second byte, and only strings,
arrays and maps have an indefinite length. -/
def readHead : Bytes → Except Failure (Head × Bytes)
  | [] => .error .truncated
  | b :: rest =>
    let major := b.toNat / 32
    let info := b.toNat % 32
    let argument (k : Nat) : Except Failure (Head × Bytes) :=
      if rest.length < k then .error .truncated
      else
        let n := Word.value (rest.take k)
        if major = 7 ∧ k = 1 ∧ n < 32 then .error .invalid else .ok (⟨major, info, n⟩, rest.drop k)
    if info < 24 then .ok (⟨major, info, info⟩, rest)
    else if info = 24 then argument 1
    else if info = 25 then argument 2
    else if info = 26 then argument 4
    else if info = 27 then argument 8
    else if info < 31 then .error .invalid
    else if major = 0 ∨ major = 1 ∨ major = 6 ∨ major = 7 then .error .invalid
    else .ok (⟨major, 31, 31⟩, rest)

/-- Takes `n` bytes off the front. -/
def takeBytes (n : Nat) (t : Bytes) : Except Failure (Bytes × Bytes) :=
  if Word.half ≤ n then .error .invalid
  else if t.length < n then .error .truncated
  else .ok (t.take n, t.drop n)

/-- Takes the pieces of a string of indefinite length off the front: strings of the same type with
lengths of their own, up to a break. -/
def readPieces (major : Nat) : (fuel : Nat) → Bytes → Except Failure (List Bytes × Bytes)
  | 0, _ => .error .truncated
  | _, [] => .error .truncated
  | fuel + 1, b :: rest =>
    if b = 0xff then .ok ([], rest)
    else if b.toNat / 32 ≠ major ∨ b.toNat % 32 = 31 then .error .invalid
    else match readHead (b :: rest) with
    | .error e => .error e
    | .ok (head, rest) =>
      match takeBytes head.argument rest with
      | .error e => .error e
      | .ok (piece, rest) => (readPieces major fuel rest).map fun r => (piece :: r.1, r.2)

/-- Takes `n` items off the front. -/
def readMany (read : Bytes → Except Failure (Item × Bytes)) :
    Nat → Bytes → Except Failure (List Item × Bytes)
  | 0, t => .ok ([], t)
  | n + 1, t =>
    match read t with
    | .error e => .error e
    | .ok (x, rest) => (readMany read n rest).map fun r => (x :: r.1, r.2)

/-- Takes items off the front up to a break; `most` more are allowed. -/
def readUntilBreak (read : Bytes → Except Failure (Item × Bytes)) :
    (fuel most : Nat) → Bytes → Except Failure (List Item × Bytes)
  | 0, _, _ => .error .truncated
  | _, _, [] => .error .truncated
  | fuel + 1, most, b :: rest =>
    if b = 0xff then .ok ([], rest)
    else match read (b :: rest) with
    | .error e => .error e
    | .ok (x, rest) =>
      if most = 0 then .error .invalid
      else (readUntilBreak read fuel (most - 1) rest).map fun r => (x :: r.1, r.2)

/-- Takes the elements of an array, or the keys and values of a map, off the front. -/
def readElems (read : Bytes → Except Failure (Item × Bytes)) (head : Head) (t : Bytes) :
    Except Failure (List Item × Bytes) :=
  let perEntry := if head.major = 5 then 2 else 1
  if head.info = 31 then
    match readUntilBreak read (t.length + 1) (perEntry * maxElements + (perEntry - 1)) t with
    | .error e => .error e
    | .ok (xs, rest) => if xs.length % perEntry ≠ 0 then .error .invalid else .ok (xs, rest)
  else if maxElements < head.argument then .error .invalid
  else readMany read (perEntry * head.argument) t

/-- Takes a string off the front. -/
def readPayload (head : Head) (t : Bytes) : Except Failure (List Bytes × Bytes) :=
  if head.info = 31 then readPieces head.major (t.length + 1) t
  else (takeBytes head.argument t).map fun r => ([r.1], r.2)

/-- Takes an item off the front that lies `depth` deep.  The first of several tags counts no depth.
Every level takes a byte, so `fuel` above their number suffices. -/
def readItem : (fuel depth : Nat) → (tagged : Bool) → Bytes → Except Failure (Item × Bytes)
  | 0, _, _, _ => .error .truncated
  | fuel + 1, depth, tagged, t =>
    match readHead t with
    | .error e => .error e
    | .ok (head, rest) =>
      match head.major with
      | 0 => .ok (.unsigned head.argument, rest)
      | 1 => .ok (.negative head.argument, rest)
      | 2 => (readPayload head rest).map fun r => (.bytes r.1, r.2)
      | 3 => (readPayload head rest).map fun r => (.text r.1, r.2)
      | 4 =>
        if maxDepth < depth + 1 then .error .invalid
        else (readElems (readItem fuel (depth + 1) false) head rest).map fun r => (.array r.1, r.2)
      | 5 =>
        if maxDepth < depth + 1 then .error .invalid
        else (readElems (readItem fuel (depth + 1) false) head rest).map fun r => (.map r.1, r.2)
      | 6 =>
        let depth := if tagged then depth + 1 else depth
        if maxDepth < depth then .error .invalid
        else (readItem fuel depth true rest).map fun r => (.tag head.argument r.1, r.2)
      | _ =>
        if 25 ≤ head.info then .ok (.float, rest) else .ok (.simple head.argument, rest)

/-- The only item of some bytes. -/
def readOnly (t : Bytes) : Except Failure Item :=
  if t.isEmpty then .error .empty
  else match readItem (t.length + 1) 0 false t with
  | .error e => .error e
  | .ok (x, rest) => if rest.isEmpty then .ok x else .error .invalid

/-! ### Bindings of items -/

/-- May the tag stand before the item?  The tags of dates and large numbers ask for a text, a
number or a byte string. -/
def tagFits (number : Nat) (x : Item) : Bool :=
  match number, x with
  | 0, .text _ => true
  | 1, .unsigned _ | 1, .negative _ | 1, .float => true
  | 2, .bytes _ | 3, .bytes _ => true
  | n, _ => 3 < n

/-- The number that byte strings spell, highest byte first. -/
def largeNumber (pieces : List Bytes) : Nat := Word.value pieces.flatten

/-- An item without its tags; a large number becomes a plain one. -/
def untag : Item → Option Item
  | .tag number x =>
    if !tagFits number x then none
    else match number, x with
    | 2, .bytes pieces => some (.unsigned (largeNumber pieces))
    | 3, .bytes pieces => some (.negative (largeNumber pieces))
    | _, x => untag x
  | x => some x

/-- Is the simple value null or undefined? -/
def isNull (n : Nat) : Bool := n = 22 || n = 23

/-- A number of 64 bits; null is 0. -/
def intOf? (x : Item) : Option Int64 :=
  match untag x with
  | some (.unsigned n) => if n < Word.half then some (Int64.ofNat n) else none
  | some (.negative n) => if n < Word.half then some (Int64.ofInt (-1 - n)) else none
  | some (.simple n) =>
    if isNull n then some 0 else if n = 20 || n = 21 then none else some (Int64.ofNat n)
  | _ => none

/-- A truth value; null is false. -/
def boolOf? (x : Item) : Option Bool :=
  match untag x with
  | some (.simple n) =>
    if isNull n || n = 20 then some false else if n = 21 then some true else none
  | _ => none

/-- A text, every piece of which is UTF-8; null is empty. -/
def textOf? (x : Item) : Option Bytes :=
  match untag x with
  | some (.text pieces) => if pieces.all Utf8.isUtf8 then some pieces.flatten else none
  | some (.simple n) => if isNull n then some [] else none
  | _ => none

/-- A sequence; null is empty. -/
def elemsOf? (x : Item) : Option (List Item) :=
  match untag x with
  | some (.array xs) => some xs
  | some (.simple n) => if isNull n then some [] else none
  | _ => none

/-- The fields of a map by their keys, in small letters; keys that are numbers of 64 bits name no
field. -/
def pairUp : List Item → Option (List (Bytes × Item))
  | .text pieces :: x :: rest =>
    if pieces.all Utf8.isUtf8 then (pairUp rest).map ((Bytes.lower pieces.flatten, x) :: ·)
    else none
  | .unsigned _ :: _ :: rest => pairUp rest
  | .negative n :: _ :: rest => if n < Word.half then pairUp rest else none
  | [] => some []
  | _ => none

/-- The fields of a map; null has none. -/
def fieldsOf? (x : Item) : Option (List (Bytes × Item)) :=
  match untag x with
  | some (.map xs) => pairUp xs
  | some (.simple n) => if isNull n then some [] else none
  | _ => none

/-- The first field with a key, null if there is none. -/
def field (key : String) (fields : List (Bytes × Item)) : Item :=
  (fields.lookup (utf8 key)).getD (.simple 22)

/-- The stored value with the given fields, of which its kind picks one. -/
def assemble (kind : Int64) (b : Bool) (i : Int64) (s : Bytes) (v : List Stored) : Stored :=
  if kind = 0 then .nil
  else if kind = 1 then .bool b
  else if kind = 2 then .function s
  else if kind = 3 then .integer i
  else if kind = 4 then .keyword s
  else if kind = 5 then .string s
  else if kind = 6 then .vector v
  else .unlisted kind

/-- Collects the results of `f`, if all of them exist. -/
def collect {α β : Type} (f : α → Option β) : List α → Option (List β)
  | [] => some []
  | a :: as =>
    match f a with
    | none => none
    | some b => (collect f as).map (b :: ·)

/-- The stored value that an item spells; `fuel` bounds the nesting. -/
def storedOf? : (fuel : Nat) → Item → Option Stored
  | 0, _ => none
  | fuel + 1, x => do
    let fields ← fieldsOf? x
    let kind ← intOf? (field "k" fields)
    let b ← boolOf? (field "b" fields)
    let i ← intOf? (field "i" fields)
    let s ← textOf? (field "s" fields)
    let v ← collect (storedOf? fuel) (← elemsOf? (field "v" fields))
    return assemble kind b i s v

/-- The binding that an item spells. -/
def entryOf? (x : Item) : Option Entry := do
  let fields ← fieldsOf? x
  let name ← textOf? (field "n" fields)
  let value ← storedOf? (maxDepth + 1) (field "v" fields)
  return ⟨name, value⟩

/-- The bindings that bytes spell. -/
def readEntries (t : Bytes) : Except Failure (List Entry) :=
  match readOnly t with
  | .error e => .error e
  | .ok x =>
    match (elemsOf? x).bind (collect entryOf?) with
    | some es => .ok es
    | none => .error .invalid

end SpanLisp.Cbor
