import SpanLisp.Json.Number
import SpanLisp.Text.Hex
import SpanLisp.Text.Utf8

/-!
# Reading JSON

`Json.read?` reads the datum at the front of a text; what follows it is ignored.  Sequences and
maps nest at most 1023 deep.

A key may come again in a map.  Its datum is then read over the earlier one (`readValue` with that
datum): a scalar is read as one of the earlier kind, the elements of a sequence over the earlier
elements, and the fields of a map are added to the earlier fields.  Only null takes the place of
anything, and anything takes the place of null, so that a datum is read afresh over null.
-/

namespace SpanLisp.Json

/-- The blanks between the parts of a JSON text: the space and all control characters below it. -/
def isBlank (b : UInt8) : Bool := b ≤ 0x20

/-- Drops the blanks at the front. -/
def skipBlanks (t : Bytes) : Bytes := t.dropWhile isBlank

/-- Reads the expected bytes at the front of the text. -/
def expect? : (word t : Bytes) → Option Bytes
  | [], t => some t
  | w :: ws, b :: bs => if w = b then expect? ws bs else none
  | _ :: _, [] => none

/-! ### Strings -/

/-- The number that four hexadecimal digits spell, U+FFFD if one of them is none. -/
def codeUnit (a b c d : UInt8) : Nat :=
  match Hex.value? a, Hex.value? b, Hex.value? c, Hex.value? d with
  | some a, some b, some c, some d => ((a * 16 + b) * 16 + c) * 16 + d
  | _, _, _, _ => 0xfffd

/-- Is the number one half of a surrogate pair? -/
def isSurrogate (n : Nat) : Bool := 0xd800 ≤ n && n < 0xe000

/-- The character of a surrogate pair, U+FFFD if the halves do not fit. -/
def pairChar (hi lo : Nat) : Char :=
  if hi < 0xdc00 && 0xdc00 ≤ lo && lo < 0xe000 then
    Char.ofNat ((hi - 0xd800) * 1024 + (lo - 0xdc00) + 0x10000)
  else Utf8.replacement

/-- The byte that a one-letter escape stands for. -/
def escapeByte? (b : UInt8) : Option UInt8 :=
  if b = 0x22 || b = 0x5c || b = 0x2f || b = 0x27 then some b
  else if b = 0x62 then some 0x08
  else if b = 0x66 then some 0x0c
  else if b = 0x6e then some 0x0a
  else if b = 0x72 then some 0x0d
  else if b = 0x74 then some 0x09
  else none

/-- Reads the rest of a string after its opening quote: its contents and what follows it.  The
second half of a surrogate pair is taken as it comes. -/
def readString : Bytes → Option (Bytes × Bytes)
  | [] => none
  | 0x22 :: rest => some ([], rest)
  | 0x5c :: 0x75 :: a :: b :: c :: d :: rest =>
    let n := codeUnit a b c d
    if isSurrogate n then
      match rest with
      | s :: u :: a' :: b' :: c' :: d' :: rest' =>
        let ch := if s = 0x5c && u = 0x75 then pairChar n (codeUnit a' b' c' d')
          else Utf8.replacement
        (readString rest').map fun r => (Utf8.encode ch ++ r.1, r.2)
      | _ => none
    else (readString rest).map fun r => (Utf8.encode (Char.ofNat n) ++ r.1, r.2)
  | 0x5c :: e :: rest =>
    match escapeByte? e with
    | some b => (readString rest).map fun r => (b :: r.1, r.2)
    | none => none
  | 0x5c :: [] => none
  | b :: rest => (readString rest).map fun r => (b :: r.1, r.2)

/-! ### Scalars -/

/-- Reads one of the two truth values, which starts with the byte `b`. -/
def readBool (b : UInt8) (rest : Bytes) : Option (Bool × Bytes) :=
  if b = 0x74 then (expect? (utf8 "rue") rest).map (true, ·)
  else if b = 0x66 then (expect? (utf8 "alse") rest).map (false, ·)
  else none

/-- Reads a scalar that starts with the byte `b`. -/
def readScalar (b : UInt8) (rest : Bytes) : Option (Scalar × Bytes) :=
  if b = 0x22 then (readString rest).map fun r => (.text r.1, r.2)
  else if b = 0x6e then (expect? (utf8 "ull") rest).map (.null, ·)
  else if b = 0x74 ∨ b = 0x66 then (readBool b rest).map fun r => (.bool r.1, r.2)
  else
    let t := b :: rest
    (number? (t.takeWhile isNumeric)).map (·, t.dropWhile isNumeric)

/-- The text of a number where one is expected, perhaps in quotes, and what follows it.  It is
empty in front of anything else. -/
def numberText (b : UInt8) (rest : Bytes) : Option (Bytes × Bytes) :=
  if b = 0x22 then
    match Bytes.cut 0x22 rest with
    | (t, some rest) => some (t, rest)
    | (_, none) => none
  else
    let t := b :: rest
    some (t.takeWhile isNumeric, t.dropWhile isNumeric)

/-- Reads a truth value where one is expected.  As a key it may stand in quotes, and null then
counts as false. -/
def boolOver (isKey : Bool) (b : UInt8) (rest : Bytes) : Option (Bool × Bytes) :=
  if isKey ∧ b = 0x22 then
    match rest with
    | [] => none
    | c :: rest =>
      let word := if c = 0x6e then (expect? (utf8 "ull") rest).map (false, ·) else readBool c rest
      match word with
      | some (x, _ :: rest) => some (x, rest)
      | _ => none
  else readBool b rest

/-- Reads a string where one is expected; a truth value or a number is taken as it is written. -/
def textOver (b : UInt8) (rest : Bytes) : Option (Bytes × Bytes) :=
  if b = 0x22 then readString rest
  else if b = 0x74 then (expect? (utf8 "rue") rest).map (utf8 "true", ·)
  else if b = 0x66 then (expect? (utf8 "alse") rest).map (utf8 "false", ·)
  else numberText b rest

/-- Reads a scalar of the kind of an earlier one; it starts with the byte `b`. -/
def scalarOver (isKey : Bool) (old : Scalar) (b : UInt8) (rest : Bytes) :
    Option (Scalar × Bytes) :=
  match old with
  | .null => readScalar b rest
  | .bool _ => (boolOver isKey b rest).map fun r => (.bool r.1, r.2)
  | .text _ => (textOver b rest).map fun r => (.text r.1, r.2)
  | .unsigned _ =>
    match numberText b rest with
    | none => none
    | some (t, rest) =>
      match integer? t with
      | some (false, n) => some (.unsigned n, rest)
      | _ => none
  | .signed _ =>
    match numberText b rest with
    | none => none
    | some (t, rest) =>
      match integer? t with
      | some (true, n) => (negated? n).map (.signed ·, rest)
      | some (false, n) => if n ≤ 9223372036854775807 then some (.signed n, rest) else none
      | none => none
  | .real _ =>
    match numberText b rest with
    | none => none
    | some (t, rest) => (real? t).map (.real ·, rest)

/-! ### Data that are passed over -/

/-- Passes over the rest of a string after its opening quote. -/
def skipString : Bytes → Option Bytes
  | [] => none
  | 0x22 :: rest => some rest
  | 0x5c :: _ :: rest => skipString rest
  | _ :: rest => skipString rest

theorem length_skipString_le {t rest : Bytes} (h : skipString t = some rest) :
    rest.length ≤ t.length := by
  fun_induction skipString t with
  | case1 => simp at h
  | case2 rest' => simp at h; subst h; simp
  | case3 _ rest' ih => have := ih h; simp; omega
  | case4 _ rest' _ _ ih => have := ih h; simp; omega

/-- Passes over what is left of `level` sequences and maps inside each other; only the number of
brackets counts. -/
def skipNested (level : Nat) (t : Bytes) : Option Bytes :=
  if level = 0 then some t
  else match t with
  | [] => none
  | b :: rest =>
    if b = 0x22 then
      match _h : skipString rest with
      | none => none
      | some rest' => skipNested level rest'
    else if b = 0x7b ∨ b = 0x5b then skipNested (level + 1) rest
    else if b = 0x7d ∨ b = 0x5d then skipNested (level - 1) rest
    else skipNested level rest
termination_by t.length
decreasing_by
  · have := length_skipString_le ‹_›
    simp
    omega
  all_goals simp

/-- Passes over a datum. -/
def skip? (t : Bytes) : Option Bytes :=
  match skipBlanks t with
  | [] => none
  | b :: rest =>
    if b = 0x22 then skipString rest
    else if b = 0x6e then expect? (utf8 "ull") rest
    else if b = 0x74 ∨ b = 0x66 then (readBool b rest).map (·.2)
    else if b = 0x7b ∨ b = 0x5b then skipNested 1 rest
    else some ((b :: rest).dropWhile isNumeric)

/-! ### Maps -/

/-- The text that stands for a scalar as a key. -/
def Scalar.label : Scalar → Bytes
  | .null => utf8 "<nil>"
  | .bool b => if b then utf8 "true" else utf8 "false"
  | .unsigned n => Decimal.ofNat n
  | .signed n => Decimal.ofInt n
  | .real x => x.shortest
  | .text s => s

/-- Are these the same key?  The two zeros of doubles are. -/
def Scalar.isSame : (x y : Scalar) → Bool
  | .real x, .real y => x = y || (x.mantissa = 0 && y.mantissa = 0)
  | x, y => x = y

/-- The datum of a key, null if the key is new. -/
def fieldOf (key : Scalar) (fields : List (Scalar × Json)) : Json :=
  ((fields.find? (·.1.isSame key)).map (·.2)).getD .null

/-- Puts a field with a new key into a list of fields sorted by label. -/
def insertField (key : Scalar) (x : Json) : List (Scalar × Json) → List (Scalar × Json)
  | [] => [(key, x)]
  | (k, y) :: fs =>
    if key.label < k.label then (key, x) :: (k, y) :: fs else (k, y) :: insertField key x fs

/-- Puts a field into a list of fields sorted by label, in the place of one with the same key. -/
def setField (key : Scalar) (x : Json) (fields : List (Scalar × Json)) : List (Scalar × Json) :=
  insertField key x (fields.filter (!·.1.isSame key))

/-! ### Data -/

/-- The deepest nesting of sequences and maps. -/
def maxDepth : Nat := 1023

/-- The two kinds of data with parts. -/
inductive Container where
  /-- A sequence of elements. -/
  | array
  /-- A map, whose keys and data alternate. -/
  | object
  deriving DecidableEq, Repr

/-- The bracket at the end. -/
def Container.close : Container → UInt8
  | array => 0x5d
  | object => 0x7d

/-- Is the part with this number a key? -/
def Container.isKey (c : Container) (i : Nat) : Bool := c = object && i % 2 = 0

/-- The byte in front of the part with this number, which is not the first. -/
def Container.mark (c : Container) (i : Nat) : UInt8 :=
  if c = object ∧ i % 2 = 1 then 0x3a else 0x2c

mutual

/-- Reads a datum over an earlier one; `depth` more levels of nesting are allowed. -/
def readValue : (fuel depth : Nat) → (isKey : Bool) → (old : Json) → Bytes → Option (Json × Bytes)
  | 0, _, _, _, _ => none
  | fuel + 1, depth, isKey, old, t =>
    match skipBlanks t with
    | [] => none
    | b :: rest =>
      if b = 0x6e then (expect? (utf8 "ull") rest).map (.null, ·)
      else match old, depth with
      | .null, 0 =>
        if b = 0x5b ∨ b = 0x7b then none
        else (readScalar b rest).map fun r => (.scalar r.1, r.2)
      | .null, depth + 1 =>
        if b = 0x5b then (readElems fuel depth true rest).map fun r => (.array r.1, r.2)
        else if b = 0x7b then (readFields fuel depth true [] rest).map fun r => (.object r.1, r.2)
        else (readScalar b rest).map fun r => (.scalar r.1, r.2)
      | .scalar x, _ => (scalarOver isKey x b rest).map fun r => (.scalar r.1, r.2)
      | .array _, 0 => none
      | .array xs, depth + 1 =>
        if b = 0x5b then (readParts fuel depth .array 0 xs rest).map fun r => (.array r.1, r.2)
        else if b = 0x7b then
          (readParts fuel depth .object 0 xs rest).map fun r => (.array r.1, r.2)
        else none
      | .object _, 0 => none
      | .object fields, depth + 1 =>
        if b = 0x7b then
          (readFields fuel depth true fields rest).map fun r => (.object r.1, r.2)
        else none

/-- Reads the elements of a sequence up to its end; `first` tells whether none has come yet. -/
def readElems : (fuel depth : Nat) → (first : Bool) → Bytes → Option (List Json × Bytes)
  | 0, _, _, _ => none
  | fuel + 1, depth, first, t =>
    match skipBlanks t with
    | [] => none
    | b :: rest =>
      if b = 0x5d then some ([], rest)
      else if first ∨ b = 0x2c then
        match readValue fuel depth false .null (if first then b :: rest else rest) with
        | none => none
        | some (x, rest) => (readElems fuel depth false rest).map fun r => (x :: r.1, r.2)
      else none

/-- Reads the fields of a map up to its end, after the fields already read; `first` tells whether
none has come yet. -/
def readFields : (fuel depth : Nat) → (first : Bool) → List (Scalar × Json) → Bytes →
    Option (List (Scalar × Json) × Bytes)
  | 0, _, _, _, _ => none
  | fuel + 1, depth, first, fields, t =>
    match skipBlanks t with
    | [] => none
    | b :: rest =>
      if b = 0x7d then some (fields, rest)
      else if first ∨ b = 0x2c then
        match skipBlanks (if first then b :: rest else rest) with
        | [] => none
        | b :: rest =>
          match readScalar b rest with
          | none => none
          | some (key, rest) =>
            match skipBlanks rest with
            | 0x3a :: rest =>
              match readValue fuel depth false (fieldOf key fields) rest with
              | none => none
              | some (x, rest) => readFields fuel depth false (setField key x fields) rest
            | _ => none
      else none

/-- Reads the parts of a sequence or a map over earlier elements, from the part with number `i` on.
Elements that no part is left for stay, and parts that no element is left for are passed over. -/
def readParts : (fuel depth : Nat) → (kind : Container) → (i : Nat) → List Json → Bytes →
    Option (List Json × Bytes)
  | 0, _, _, _, _, _ => none
  | fuel + 1, depth, kind, i, xs, t =>
    match skipBlanks t with
    | [] => none
    | b :: rest =>
      if b = 0x5d ∨ b = 0x7d then if b = kind.close then some (xs, rest) else none
      else if i = 0 ∨ b = kind.mark i then
        let t := if i = 0 then b :: rest else rest
        match xs with
        | [] =>
          match skip? t with
          | none => none
          | some rest => readParts fuel depth kind (i + 1) [] rest
        | x :: xs =>
          match readValue fuel depth (kind.isKey i) x t with
          | none => none
          | some (y, rest) =>
            (readParts fuel depth kind (i + 1) xs rest).map fun r => (y :: r.1, r.2)
      else none

end

/-- The datum at the front of a text. -/
def read? (t : Bytes) : Option Json :=
  (readValue (2 * t.length + 2) maxDepth false .null t).map (·.1)

end SpanLisp.Json
