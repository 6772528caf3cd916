import SpanLisp.Settings.File
import SpanLisp.Text.Scientific
import SpanLisp.Text.Utf8

/-!
# Settings in TOML

Flat TOML: lines of `key = value` with strings, integers, floats and truth values, blank lines and
comments.  `Toml.read?` gives the keys and values of a text and `Toml.settings?` what they say.
Keys of settings are recognised in capitals too, and a value of another type than the setting's is
refused.
-/

namespace SpanLisp.Toml

/-- A value. -/
inductive Scalar where
  /-- A string. -/
  | text (t : Bytes)
  /-- An integer. -/
  | integer (n : Int)
  /-- A truth value. -/
  | bool (b : Bool)
  /-- A number with a fraction or an exponent; no setting takes one. -/
  | float
  deriving DecidableEq, Repr

/-- The bytes between the parts of a line. -/
def isGap (b : UInt8) : Bool := b = 0x20 || b = 0x09

/-- Skips the bytes between the parts of a line. -/
def skipGap (t : Bytes) : Bytes := t.dropWhile isGap

/-- The control characters, which may stand nowhere; a tab is none. -/
def isControl (b : UInt8) : Bool := (b < 0x20 && b != 0x09) || b = 0x7f

/-- Is this the end of a line, perhaps with a comment? -/
def isLineEnd (t : Bytes) : Bool :=
  match skipGap t with
  | [] => true
  | b :: rest => b = 0x23 && !rest.any isControl

/-! ### Strings -/

/-- The number that hexadecimal digits spell. -/
def hexNumber? (digits : Bytes) : Option Nat :=
  digits.foldl (fun n b => n.bind fun n => (Hex.value? b).map (16 * n + ·)) (some 0)

/-- The character of an escape with `width` digits, and the text after them. -/
def escapedChar? (width : Nat) (t : Bytes) : Option (Bytes × Bytes) :=
  if t.length < width then none
  else match hexNumber? (t.take width) with
  | none => none
  | some n => if n.isValidChar then some (Utf8.encode (Char.ofNat n), t.drop width) else none

/-- The character that a letter stands for after a backslash. -/
def escapeLetter? (b : UInt8) : Option UInt8 :=
  if b = 0x62 then some 0x08
  else if b = 0x74 then some 0x09
  else if b = 0x6e then some 0x0a
  else if b = 0x66 then some 0x0c
  else if b = 0x72 then some 0x0d
  else if b = 0x65 then some 0x1b
  else if b = 0x22 then some 0x22
  else if b = 0x5c then some 0x5c
  else none

/-- Reads an escape after its backslash. -/
def escape? (b : UInt8) (rest : Bytes) : Option (Bytes × Bytes) :=
  if b = 0x78 then escapedChar? 2 rest
  else if b = 0x75 then escapedChar? 4 rest
  else if b = 0x55 then escapedChar? 8 rest
  else (escapeLetter? b).map fun c => ([c], rest)

/-- Reads a string after its double quote.  Every step takes a byte, so `fuel` above their number
suffices. -/
def basic? : (fuel : Nat) → Bytes → Option (Bytes × Bytes)
  | fuel + 1, b :: rest =>
    if b = 0x22 then some ([], rest)
    else if b = 0x5c then
      match rest with
      | [] => none
      | c :: rest =>
        match escape? c rest with
        | none => none
        | some (piece, rest) => (basic? fuel rest).map fun r => (piece ++ r.1, r.2)
    else if isControl b then none
    else (basic? fuel rest).map fun r => (b :: r.1, r.2)
  | _, _ => none

/-- Reads a string after its single quote. -/
def literal? : Bytes → Option (Bytes × Bytes)
  | [] => none
  | b :: rest =>
    if b = 0x27 then some ([], rest)
    else if isControl b then none
    else (literal? rest).map fun r => (b :: r.1, r.2)

/-- Reads a string in either kind of quotes. -/
def quoted? (t : Bytes) : Option (Bytes × Bytes) :=
  match t with
  | 0x22 :: rest => basic? (rest.length + 1) rest
  | 0x27 :: rest => literal? rest
  | _ => none

/-! ### Numbers -/

/-- The bytes of a bare key, which are also those of a number. -/
def isBare (b : UInt8) : Bool :=
  let c := Bytes.lowerByte b
  Decimal.isDigit b || (0x61 ≤ c && c ≤ 0x7a) || b = 0x5f || b = 0x2d

/-- Are these digits, with single underscores between them? -/
def areDigits (isDigit : UInt8 → Bool) (t : Bytes) : Bool :=
  (Bytes.splitOn Integer.underscore t).all fun part => !part.isEmpty && part.all isDigit

/-- Are these decimal digits without a needless zero in front? -/
def areDecimal (t : Bytes) : Bool :=
  areDigits Decimal.isDigit t && (t.length = 1 || t.head? != some 0x30)

/-- The text without a sign in front. -/
def unsigned (t : Bytes) : Bytes :=
  match t with
  | 0x2b :: rest | 0x2d :: rest => rest
  | _ => t

/-- Is this an integer? -/
def isInteger (t : Bytes) : Bool :=
  match t with
  | 0x30 :: 0x78 :: digits => areDigits (fun b => (Hex.value? b).isSome) digits
  | 0x30 :: 0x6f :: digits => areDigits (fun b => 0x30 ≤ b && b ≤ 0x37) digits
  | 0x30 :: 0x62 :: digits => areDigits (fun b => b = 0x30 || b = 0x31) digits
  | _ => areDecimal (unsigned t)

/-- Is this a number with a fraction or an exponent that is not too large for a double? -/
def isFloat (t : Bytes) : Bool :=
  let body := unsigned t
  let mantissa := body.takeWhile (!Scientific.isExponentMark ·)
  let power := body.dropWhile (!Scientific.isExponentMark ·)
  let (whole, fraction) := Bytes.cut 0x2e mantissa
  let plain := t.filter (· != Integer.underscore)
  (areDecimal whole && (fraction.map (areDigits Decimal.isDigit)).getD true &&
      (power.isEmpty || areDigits Decimal.isDigit (unsigned (power.drop 1))) &&
      ((Scientific.parse? plain).bind Scientific.toBinary64?).isSome) ||
    body = utf8 "inf" || body = utf8 "nan"

/-- Reads a value that stands without quotes. -/
def plain? (word : Bytes) : Option Scalar :=
  if word = utf8 "true" then some (.bool true)
  else if word = utf8 "false" then some (.bool false)
  else if isInteger word then (Integer.parse word).toOption.map .integer
  else if isFloat word then some .float
  else none

/-! ### Lines -/

/-- Reads a value and gives the text after it. -/
def value? (t : Bytes) : Option (Scalar × Bytes) :=
  match quoted? t with
  | some (s, rest) => some (.text s, rest)
  | none =>
    let isPart (b : UInt8) : Bool := isBare b || b = 0x2b || b = 0x2e
    (plain? (t.takeWhile isPart)).map (·, t.dropWhile isPart)

/-- Reads a key and gives the text after it. -/
def key? (t : Bytes) : Option (Bytes × Bytes) :=
  match quoted? t with
  | some r => some r
  | none =>
    let name := t.takeWhile isBare
    if name.isEmpty then none else some (name, t.dropWhile isBare)

/-- Reads a line: nothing, or a key with its value. -/
def line? (t : Bytes) : Option (Option (Bytes × Scalar)) :=
  if isLineEnd t then some none
  else match key? (skipGap t) with
  | none => none
  | some (key, rest) =>
    match skipGap rest with
    | 0x3d :: rest =>
      match value? (skipGap rest) with
      | none => none
      | some (x, rest) => if isLineEnd rest then some (some (key, x)) else none
    | _ => none

/-- Reads lines; all but the last may end with a carriage return. -/
def lines? : List Bytes → Option (List (Bytes × Scalar))
  | [] => some []
  | t :: ts =>
    match line? (if ts.isEmpty then t else Bytes.dropTrailing Bytes.carriageReturn t) with
    | none => none
    | some none => lines? ts
    | some (some field) => (lines? ts).map (field :: ·)

/-- The text without a mark of its byte order. -/
def withoutMark (t : Bytes) : Bytes :=
  match t with
  | 0xff :: 0xfe :: rest | 0xfe :: 0xff :: rest => rest
  | 0xef :: 0xbb :: 0xbf :: rest => rest
  | _ => t

/-- The keys and values of a text; none comes twice. -/
def read? (t : Bytes) : Option (List (Bytes × Scalar)) :=
  let t := withoutMark t
  if !Utf8.isUtf8 t then none
  else match lines? (Bytes.splitOn Bytes.lineFeed t) with
  | none => none
  | some fields => if FileSettings.hasRepeat fields then none else some fields

/-- Takes a field over, if its value has the right type. -/
def assign (f : FileSettings) (key : Bytes) (x : Scalar) : Option FileSettings :=
  match FileSettings.slot? (Bytes.lower key), x with
  | none, _ => some f
  | some (.text set), .text t => some (set f t)
  | some (.switch set), .bool b => some (set f b)
  | some (.number set), .integer n => some (set f n)
  | some _, _ => none

/-- What a text says. -/
def settings? (t : Bytes) : Option FileSettings := (read? t).bind (FileSettings.fill assign {})

end SpanLisp.Toml
