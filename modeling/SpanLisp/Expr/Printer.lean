import SpanLisp.Expr
import SpanLisp.Source

/-!
# Printing syntax trees

`Expr.print` writes a tree in canonical form: single spaces between elements, decimal integers, and
every other leaf as it stands in the source.  It is split into a check that all leaves lie within
the source (`Expr.check`) and the writing itself (`Expr.write`), which puts the text of a node in
front of what follows it.
-/

namespace SpanLisp

namespace Expr

/-- The contents of a string literal: its text without the first and the last byte. -/
def stringText (source : Bytes) (span : Span) : Except Defect Bytes :=
  match slice source span with
  | .error d => .error d
  | .ok raw => if raw.length < 2 then .error .outOfBounds else .ok raw.tail.dropLast

mutual

/-- The first leaf of a tree that leaves the source, if any. -/
def check (source : Bytes) : Expr → Except Defect Unit
  | list _ xs | vector _ xs => checkAll source xs
  | keyword s _ | operator s _ | string s | symbol s _ => (slice source s).map fun _ => ()
  | bool .. | integer .. | nil .. | unlisted .. => .ok ()

/-- The first leaf of several trees that leaves the source, if any. -/
def checkAll (source : Bytes) : List Expr → Except Defect Unit
  | [] => .ok ()
  | x :: xs =>
    match check source x with
    | .error d => .error d
    | .ok () => checkAll source xs

end

/-- The spelling of a truth value. -/
def boolText (b : Bool) : Bytes := if b then utf8 "true" else utf8 "false"

mutual

/-- Writes a tree in front of `rest`. -/
def write (source : Bytes) : Expr → Bytes → Bytes
  | bool _ b, rest => boolText b ++ rest
  | integer _ n, rest => Decimal.ofInt n.toInt ++ rest
  | nil _, rest => utf8 "nil" ++ rest
  | list _ xs, rest => 0x28 :: writeAll source xs (0x29 :: rest)
  | vector _ xs, rest => 0x5b :: writeAll source xs (0x5d :: rest)
  | keyword s _, rest | operator s _, rest | string s, rest | symbol s _, rest =>
    s.of source ++ rest
  | unlisted .., rest => rest

/-- Writes trees with single spaces between them in front of `rest`. -/
def writeAll (source : Bytes) : List Expr → Bytes → Bytes
  | [], rest => rest
  | [x], rest => write source x rest
  | x :: xs, rest => write source x (0x20 :: writeAll source xs rest)

end

/-- A tree in canonical form. -/
def print (source : Bytes) (e : Expr) : Except Defect Bytes :=
  (e.check source).map fun _ => e.write source []

end Expr

end SpanLisp
