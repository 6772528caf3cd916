import SpanLisp.Defect

/-!
# Reading a source text

Tokens and syntax trees keep spans, not texts.  `slice` reads the bytes of a span back out of the
text, `Span.ofBounds` makes a span from two integers, and `lineAt` finds the line around an offset.
-/

namespace SpanLisp

/-- The span with the given bounds, which have to be in order.  Offsets are 32 bit words, so larger
bounds are reduced modulo 2^32. -/
def Span.ofBounds (lo hi : Int) : Except Defect Span :=
  if lo < 0 ∨ hi < lo then .error (.invalidSpan lo hi)
  else .ok ⟨lo.toNat % 4294967296, hi.toNat % 4294967296⟩

/-- The bytes that a span covers; a span that leaves the text is a defect. -/
def slice (text : Bytes) (s : Span) : Except Defect Bytes :=
  if s.Within text.length then .ok (s.of text) else .error (.spanOutOfRange s text.length)

/-- The offset just after the last line feed of a text, 0 if there is none. -/
def afterLastLineFeed (t : Bytes) : Nat :=
  t.length - (t.reverse.takeWhile (· != Bytes.lineFeed)).length

/-- The line around offset `pos`, without its line feed and without a carriage return before that,
and the offset where it begins.  An offset past the end means the end. -/
def lineAt (text : Bytes) (pos : Nat) : Bytes × Nat :=
  let start := afterLastLineFeed (text.take pos)
  let line := (text.drop start).takeWhile (· != Bytes.lineFeed)
  (Bytes.dropTrailing Bytes.carriageReturn line, start)

/-- The line around an offset that may be negative, which is a defect. -/
def lineAtInt (text : Bytes) (pos : Int) : Except Defect (Bytes × Nat) :=
  if pos < 0 then .error .outOfBounds else .ok (lineAt text pos.toNat)

end SpanLisp
