import SpanLisp.Text.Decimal

/-!
# Spans

A `Span` is a half-open range of byte offsets into a text.
-/

namespace SpanLisp

/-- A half-open range of byte offsets. -/
structure Span where
  /-- Offset of the first byte. -/
  lo : Nat
  /-- Offset just after the last byte. -/
  hi : Nat
  deriving DecidableEq, Repr

namespace Span

/-- A span as text, `[lo,hi)`. -/
def text (s : Span) : Bytes :=
  utf8 "[" ++ Decimal.ofNat s.lo ++ utf8 "," ++ Decimal.ofNat s.hi ++ utf8 ")"

/-- The empty span at an offset. -/
def point (n : Nat) : Span := ⟨n, n⟩

/-- The number of bytes from `lo` to `hi`, as a 32 bit word. -/
def length (s : Span) : Nat := (s.hi + 4294967296 - s.lo) % 4294967296

/-- The span lies within a text of `size` bytes. -/
def Within (s : Span) (size : Nat) : Prop := s.lo ≤ s.hi ∧ s.hi ≤ size

instance (s : Span) (size : Nat) : Decidable (s.Within size) :=
  inferInstanceAs (Decidable (s.lo ≤ s.hi ∧ s.hi ≤ size))

/-- The bytes that the span covers. -/
def of (s : Span) (text : Bytes) : Bytes := (text.drop s.lo).take (s.hi - s.lo)

end Span

end SpanLisp
