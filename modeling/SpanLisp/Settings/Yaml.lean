import SpanLisp.Settings.File
import SpanLisp.Settings.Toml
import SpanLisp.Text.Scientific

/-!
# Settings in YAML

Flat YAML: lines of `key: value` with plain and quoted scalars, blank lines and comments.
`Yaml.read?` gives the keys and scalars of a text and `Yaml.settings?` what they say.  A plain
scalar has the type that it looks like; a setting that is a text takes any scalar as it is written,
and a null scalar says nothing.
-/

namespace SpanLisp.Yaml

/-- A scalar. -/
structure Scalar where
  /-- Its text, without quotes. -/
  text : Bytes
  /-- Did it stand in quotes? -/
  isQuoted : Bool := false
  deriving DecidableEq, Repr

/-! ### Quoted scalars -/

/-- The character that a letter stands for after a backslash. -/
def escapeLetter? (b : UInt8) : Option Nat :=
  ([(0x30, 0x00), (0x61, 0x07), (0x62, 0x08), (0x74, 0x09), (0x09, 0x09), (0x6e, 0x0a),
    (0x76, 0x0b), (0x66, 0x0c), (0x72, 0x0d), (0x65, 0x1b), (0x20, 0x20), (0x22, 0x22),
    (0x27, 0x27), (0x2f, 0x2f), (0x5c, 0x5c), (0x4e, 0x85), (0x5f, 0xa0), (0x4c, 0x2028),
    (0x50, 0x2029)] :
    List (UInt8 × Nat)).lookup b

/-- Reads an escape after its backslash. -/
def escape? (b : UInt8) (rest : Bytes) : Option (Bytes × Bytes) :=
  if b = 0x78 then Toml.escapedChar? 2 rest
  else if b = 0x75 then Toml.escapedChar? 4 rest
  else if b = 0x55 then Toml.escapedChar? 8 rest
  else (escapeLetter? b).map fun n => (Utf8.encode (Char.ofNat n), rest)

/-- Reads a scalar after its double quote.  Every step takes a byte, so `fuel` above their number
suffices. -/
def double? : (fuel : Nat) → Bytes → Option (Bytes × Bytes)
  | fuel + 1, b :: rest =>
    if b = 0x22 then some ([], rest)
    else if b = 0x5c then
      match rest with
      | [] => none
      | c :: rest =>
        match escape? c rest with
        | none => none
        | some (piece, rest) => (double? fuel rest).map fun r => (piece ++ r.1, r.2)
    else (double? fuel rest).map fun r => (b :: r.1, r.2)
  | _, _ => none

/-- Reads a scalar after its single quote; a doubled quote stands for one. -/
def single? : Bytes → Option (Bytes × Bytes)
  | [] => none
  | 0x27 :: 0x27 :: rest => (single? rest).map fun r => (0x27 :: r.1, r.2)
  | b :: rest => if b = 0x27 then some ([], rest) else (single? rest).map fun r => (b :: r.1, r.2)

/-! ### Plain scalars -/

/-- Blanks within a line. -/
def isGap (b : UInt8) : Bool := b = 0x20 || b = 0x09

/-- Skips blanks within a line. -/
def skipGap (t : Bytes) : Bytes := t.dropWhile isGap

/-- Does a blank or the end of the line come next? -/
def atGap (t : Bytes) : Bool := (t.head?.map isGap).getD true

/-- Is this the end of a line, perhaps with a comment? -/
def isLineEnd (t : Bytes) : Bool :=
  match skipGap t with
  | [] => true
  | b :: _ => b = 0x23

/-- The bytes that start something other than a plain scalar. -/
def indicators : Bytes := utf8 ",[]\x7b\x7d#&*!|>'\"%@" ++ [0x60]

/-- Can a plain scalar start here? -/
def startsPlain (t : Bytes) : Bool :=
  match t with
  | [] => false
  | b :: rest =>
    if b = 0x2d ∨ b = 0x3f ∨ b = 0x3a then !atGap rest
    else !indicators.contains b && !isGap b

/-- Cuts a plain scalar off: up to a colon before a blank or a number sign after one.  `after` tells
whether a blank has just come. -/
def cutPlain : (after : Bool) → Bytes → Bytes × Bytes
  | _, [] => ([], [])
  | after, b :: rest =>
    if (b = 0x3a ∧ atGap rest) ∨ (b = 0x23 ∧ after) then ([], b :: rest)
    else
      let r := cutPlain (isGap b) rest
      (b :: r.1, r.2)

/-- The text without blanks at its end. -/
def dropGapEnd (t : Bytes) : Bytes := (t.reverse.dropWhile isGap).reverse

/-- Reads a scalar and gives the text after it. -/
def scalar? (t : Bytes) : Option (Scalar × Bytes) :=
  match t with
  | 0x22 :: rest => (double? (rest.length + 1) rest).map fun r => (⟨r.1, true⟩, r.2)
  | 0x27 :: rest => (single? rest).map fun r => (⟨r.1, true⟩, r.2)
  | _ =>
    if startsPlain t then
      let r := cutPlain false t
      some (⟨dropGapEnd r.1, false⟩, r.2)
    else none

/-! ### Lines -/

/-- A key with its value. -/
structure Field where
  /-- The number of blanks before the key. -/
  indent : Nat
  /-- The key. -/
  key : Bytes
  /-- The value. -/
  value : Scalar
  deriving DecidableEq, Repr

/-- Reads the value of a key, with nothing but a comment behind it. -/
def value? (t : Bytes) : Option Scalar :=
  if isLineEnd t then some ⟨[], false⟩
  else match scalar? (skipGap t) with
  | none => none
  | some (x, rest) => if isLineEnd rest then some x else none

/-- Reads a line with a key. -/
def field? (t : Bytes) : Option Field :=
  let body := t.dropWhile (· = 0x20)
  match scalar? body with
  | none => none
  | some (key, rest) =>
    match skipGap rest with
    | 0x3a :: rest =>
      if !atGap rest ∨ (!key.isQuoted ∧ key.text = utf8 "<<") then none
      else (value? rest).map fun x => ⟨t.length - body.length, key.text, x⟩
    | _ => none

/-- Splits a text into lines at line feeds, carriage returns and pairs of the two. -/
def splitLines : Bytes → List Bytes
  | [] => [[]]
  | 0x0d :: 0x0a :: rest => [] :: splitLines rest
  | b :: rest =>
    if b = 0x0a ∨ b = 0x0d then [] :: splitLines rest
    else match splitLines rest with
    | [] => [[b]]
    | line :: lines => (b :: line) :: lines

/-- Is the character one that a text may not hold? -/
def isForbidden (r : Rune) : Bool :=
  let n := r.char.toNat
  Utf8.isStray r || (n < 0x20 && n != 0x09 && n != 0x0a && n != 0x0d) ||
    (0x7f ≤ n && n < 0xa0 && n != 0x85) || n = 0xfffe || n = 0xffff

/-- Does the line start with one of the marks between documents? -/
def isMark (t : Bytes) : Bool :=
  (t.take 3 = utf8 "---" || t.take 3 = utf8 "...") && atGap (t.drop 3)

/-- The lines that say something, of the first document only; a mark of its start says nothing. -/
def contents (t : Bytes) : List Bytes :=
  match (splitLines t).filter (!isLineEnd ·) with
  | first :: rest =>
    let rest := rest.takeWhile (!isMark ·)
    if first.take 3 = utf8 "---" ∧ isLineEnd (first.drop 3) then rest else first :: rest
  | [] => []

/-- The text without a mark of its byte order. -/
def withoutMark (t : Bytes) : Bytes :=
  match t with
  | 0xef :: 0xbb :: 0xbf :: rest => rest
  | _ => t

/-- The plain scalars that mean nothing. -/
def isNull (x : Scalar) : Bool :=
  !x.isQuoted && ["", "~", "null", "Null", "NULL"].any (utf8 · = x.text)

/-- The keys and scalars of a text; none comes twice, and all start in the same column. -/
def read? (t : Bytes) : Option (List (Bytes × Scalar)) :=
  let t := withoutMark t
  if (Utf8.runes t).any isForbidden then none
  else
    let lines := contents t
    if lines.length = 1 ∧ (lines.head?.bind value?).any isNull then some []
    else if lines.head?.any isMark then none
    else match lines.mapM field? with
    | none => none
    | some fields =>
      let pairs := fields.map fun f => (f.key, f.value)
      let aligned := fields.all fun f => f.indent = (fields.head?.map Field.indent).getD 0
      if aligned ∧ !FileSettings.hasRepeat pairs then some pairs else none

/-! ### Types -/

/-- The truth value that a scalar means for a setting that is on or off. -/
def switch? (x : Scalar) : Option Bool :=
  let isAny (words : List String) : Bool := words.any (utf8 · = x.text)
  if !x.isQuoted ∧ isAny ["true", "True", "TRUE"] then some true
  else if !x.isQuoted ∧ isAny ["false", "False", "FALSE"] then some false
  else if isAny ["y", "Y", "yes", "Yes", "YES", "on", "On", "ON"] then some true
  else if isAny ["n", "N", "no", "No", "NO", "off", "Off", "OFF"] then some false
  else none

/-- The whole part of a decimal numeral, after rounding to a double. -/
def whole? (t : Bytes) : Option Int :=
  ((Scientific.parse? t).bind Scientific.toBinary64?).bind Binary64.toInteger?

/-- A number whose sign stands behind the mark of its base. -/
def afterMark? (t : Bytes) : Option Int :=
  match t with
  | 0x30 :: 0x62 :: rest => Integer.parseIn? 2 rest
  | 0x30 :: 0x6f :: rest => Integer.parseIn? 8 rest
  | _ => none

/-- A number that starts with a digit or a sign; underscores in it do not count.  A number that
needs all 64 bits is refused. -/
def counted? (t : Bytes) : Option Int :=
  let plain := t.filter (· != Integer.underscore)
  match Integer.parse plain with
  | .ok n => some n
  | .error _ =>
    if (Integer.parseWord plain).toOption.isSome then none
    else if (Scientific.parse? plain).isSome then whole? plain
    else afterMark? plain

/-- The number that a scalar means. -/
def number? (x : Scalar) : Option Int :=
  if x.isQuoted then none
  else if ["-.inf", "-.Inf", "-.INF"].any (utf8 · = x.text) then some (-9223372036854775808)
  else match x.text with
  | [] => none
  | b :: _ =>
    if b = 0x2e then whole? x.text
    else if Decimal.isDigit b ∨ b = 0x2b ∨ b = 0x2d then counted? x.text
    else none

/-- Takes a field over, if its scalar means something to the setting. -/
def assign (f : FileSettings) (key : Bytes) (x : Scalar) : Option FileSettings :=
  match FileSettings.slot? key with
  | none => some f
  | some slot =>
    if isNull x then some f
    else match slot with
    | .text set => some (set f x.text)
    | .switch set => (switch? x).map (set f)
    | .number set => (number? x).map (set f)

/-- What a text says. -/
def settings? (t : Bytes) : Option FileSettings := (read? t).bind (FileSettings.fill assign {})

end SpanLisp.Yaml
