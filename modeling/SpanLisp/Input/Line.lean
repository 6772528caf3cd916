import SpanLisp.Text.Bytes

/-!
# Reading lines

Input is read through a buffer of 4096 bytes.  `Line.next` takes a line off the front, or a piece of
a line that fills the buffer; `Line.joined` puts the pieces of a line together again.
-/

namespace SpanLisp.Line

/-- The size of the buffer. -/
def bufferSize : Nat := 4096

/-- What stands at the front of the input. -/
structure Piece where
  /-- The bytes without the end of the line. -/
  text : Bytes
  /-- Does the line end here? -/
  isLast : Bool
  /-- The input after it. -/
  rest : Bytes
  deriving DecidableEq, Repr

/-- A piece of a line that fills the buffer.  A carriage return at its end is held back, because a
line feed may follow it. -/
def fullPiece (window rest : Bytes) : Piece :=
  if window.getLast? = some Bytes.carriageReturn then
    ⟨window.dropLast, false, Bytes.carriageReturn :: rest⟩
  else ⟨window, false, rest⟩

/-- Takes a line off the front: up to a line feed, without a carriage return before it, or up to the
end of the input. -/
def next (t : Bytes) : Option Piece :=
  let window := t.take bufferSize
  match Bytes.cut Bytes.lineFeed window with
  | (line, some _) =>
    some ⟨Bytes.dropTrailing Bytes.carriageReturn line, true, t.drop (line.length + 1)⟩
  | (_, none) =>
    if window.isEmpty then none
    else if window.length < bufferSize then some ⟨t, true, []⟩
    else some (fullPiece window (t.drop bufferSize))

theorem length_rest_next_lt {t : Bytes} {p : Piece} (h : next t = some p) :
    p.rest.length < t.length := by
  unfold next at h
  simp only at h
  split at h
  · rename_i line after hcut
    have ht : t ≠ [] := by
      rintro rfl
      simp [Bytes.cut] at hcut
    have := List.length_pos_iff.2 ht
    obtain rfl := Option.some.inj h
    simp only [List.length_drop]
    omega
  · split at h
    · simp at h
    · rename_i hne
      have ht : t ≠ [] := by
        rintro rfl
        simp at hne
      have hpos := List.length_pos_iff.2 ht
      split at h
      · obtain rfl := Option.some.inj h
        simpa using hpos
      · rename_i hfull
        obtain rfl := Option.some.inj h
        simp only [List.length_take, bufferSize, Nat.not_lt] at hfull
        unfold fullPiece
        split <;> simp only [List.length_cons, List.length_drop, bufferSize] <;> omega

/-- Takes a line off the front, whatever its length.  A line whose last piece fills the buffer right
before the end of the input is lost. -/
def joined (t : Bytes) : Option Bytes × Bytes :=
  match _h : next t with
  | none => (none, [])
  | some p =>
    if p.isLast then (some p.text, p.rest)
    else
      let r := joined p.rest
      (r.1.map (p.text ++ ·), r.2)
termination_by t.length
decreasing_by exact length_rest_next_lt _h

/-- Takes a line or a piece of one off the front. -/
def single (t : Bytes) : Option Bytes × Bytes :=
  match next t with
  | none => (none, [])
  | some p => (some p.text, p.rest)

end SpanLisp.Line
