import SpanLisp.Snapshot.Cbor
import SpanLisp.Snapshot.Checksum
import SpanLisp.Snapshot.Pack
import SpanLisp.Snapshot.Uuid

/-!
# Snapshots

A snapshot holds bindings: a mark of four bytes, the number of the format, the sixteen bytes of the
session's identifier, eight bytes of checksum and the bindings in that format.  `Snapshot.encode`
writes the bindings, `Snapshot.frame` puts the rest before them, and `Snapshot.read` takes a
snapshot apart.
-/

namespace SpanLisp

/-- How the bindings of a snapshot are written. -/
inductive Snapshot.Format where
  /-- MessagePack. -/
  | messagePack
  /-- CBOR. -/
  | cbor
  /-- A number that names no format. -/
  | unlisted (code : UInt8)
  deriving DecidableEq, Repr

namespace Snapshot.Format

/-- The format with a given number. -/
def ofCode (code : UInt8) : Format :=
  if code = 1 then messagePack else if code = 2 then cbor else unlisted code

/-- The number of a format. -/
def code : Format → UInt8
  | messagePack => 1
  | cbor => 2
  | unlisted c => c

/-- The name of a format. -/
def name : Format → Bytes
  | messagePack => utf8 "msgpack"
  | cbor => utf8 "cbor"
  | unlisted c => utf8 "SnapshotFormat(" ++ Decimal.ofNat c.toNat ++ utf8 ")"

/-- The format with a given name; without a name it is MessagePack. -/
def ofName? (name : Bytes) : Option Format :=
  if name = utf8 "msgpack" ∨ name = [] then some messagePack
  else if name = utf8 "cbor" then some cbor
  else none

/-- What is said of an unknown format. -/
def unknownText (what : Bytes) : Bytes := what ++ utf8 ": unknown snapshot format"

/-- What is said of a name that names no format. -/
def unknownNameText (name : Bytes) : Bytes := unknownText (Quoted.encode name)

end Snapshot.Format

/-- Why a snapshot cannot be written or read. -/
inductive Snapshot.Failure where
  /-- The bytes do not start like a snapshot. -/
  | notSnapshot
  /-- The checksum is another one. -/
  | badChecksum
  /-- No bindings can be written in this format. -/
  | cannotEncode (format : Format)
  /-- No bindings can be read in this format. -/
  | cannotDecode (format : Format)
  /-- The bindings are no MessagePack of bindings. -/
  | notPack (e : Pack.Failure)
  /-- The bindings are no CBOR of bindings. -/
  | notCbor (e : Cbor.Failure)
  /-- A value means nothing in this session. -/
  | meaningless (e : Stored.Failure)
  /-- The session has no proper identifier. -/
  | badId (e : Uuid.Failure)
  /-- A promise was broken. -/
  | defect (d : Defect)
  deriving DecidableEq, Repr

/-- What a failure of the CBOR reader reads like. -/
def Cbor.Failure.message : Cbor.Failure → Bytes
  | empty => utf8 "EOF"
  | truncated => utf8 "unexpected EOF"
  | invalid => utf8 "cbor: invalid data"

/-- What a failure reads like. -/
def Snapshot.Failure.message : Snapshot.Failure → Bytes
  | notSnapshot => utf8 "not a caret snapshot"
  | badChecksum => utf8 "snapshot checksum mismatch"
  | cannotEncode format => utf8 "snapshot encode: " ++ Format.unknownText format.name
  | cannotDecode format =>
    utf8 "snapshot decode: " ++
      Format.unknownText (utf8 "format byte " ++ Decimal.ofNat format.code.toNat)
  | notPack e => utf8 "snapshot decode: " ++ e.message
  | notCbor e => utf8 "snapshot decode: " ++ e.message
  | meaningless e => e.message
  | badId e => utf8 "session id: " ++ e.message
  | defect d => d.message

/-- Bindings with the session they come from. -/
structure Snapshot where
  /-- How the bindings are written. -/
  format : Snapshot.Format
  /-- The sixteen bytes of the session's identifier. -/
  origin : Bytes
  /-- The bindings. -/
  entries : List Entry
  deriving Repr

namespace Snapshot

/-- The mark that snapshots start with. -/
def mark : Bytes := utf8 "CRT1"

/-- The number of bytes before the bindings. -/
def headerSize : Nat := 29

/-- The bytes of bindings in a format. -/
def encode (format : Format) (es : List Entry) : Except Failure Bytes :=
  match format with
  | .messagePack => .ok (Pack.writeEntries es)
  | .cbor => .ok (Cbor.writeEntries es)
  | .unlisted _ => .error (.cannotEncode format)

/-- The bindings that bytes spell in a format. -/
def decode (format : Format) (payload : Bytes) : Except Failure (List Entry) :=
  match format with
  | .messagePack => (Pack.readEntries payload).mapError .notPack
  | .cbor => (Cbor.readEntries payload).mapError .notCbor
  | .unlisted _ => .error (.cannotDecode format)

/-- A payload behind its header. -/
def frame (format : Format) (origin payload : Bytes) : Bytes :=
  mark ++ format.code :: origin ++ Checksum.toBytes (Checksum.ofBytes payload) ++ payload

/-- The snapshot that bytes spell. -/
def read (t : Bytes) : Except Failure Snapshot :=
  if t.length < headerSize ∨ t.take 4 ≠ mark then .error .notSnapshot
  else
    let format := Format.ofCode ((t[4]?).getD 0)
    let payload := t.drop headerSize
    if Checksum.ofBytes payload ≠ Checksum.ofLittleEndian ((t.drop 21).take 8) then
      .error .badChecksum
    else (decode format payload).map fun es => ⟨format, (t.drop 5).take 16, es⟩

end Snapshot

end SpanLisp
