import SpanLisp.Input.Line
import SpanLisp.Text.Blank

/-!
# The history of lines

A `History` keeps the last thousand lines.  `History.ofText` reads them from a file and
`History.text` writes them; `History.enter` adds a line unless it is blank or repeats the last one.
-/

namespace SpanLisp

/-- The lines entered, the last one first. -/
structure History where
  /-- The lines, the last one first. -/
  recent : List Bytes := []
  deriving DecidableEq, Repr

namespace History

/-- The number of lines kept. -/
def limit : Nat := 1000

/-- Adds a line and forgets the oldest one if there are too many. -/
def push (h : History) (line : Bytes) : History := ⟨(line :: h.recent).take limit⟩

/-- Adds a line unless it is blank or repeats the last one. -/
def enter (h : History) (line : Bytes) : History :=
  if (Blank.trim line).isEmpty ∨ h.recent.head? = some line then h else h.push line

/-- Adds the lines of a text, up to one that fills the buffer or is not UTF-8. -/
def readFrom (h : History) (t : Bytes) : History :=
  match _h : Line.next t with
  | none => h
  | some p => if p.isLast ∧ Utf8.isUtf8 p.text then (h.push p.text).readFrom p.rest else h
termination_by t.length
decreasing_by exact Line.length_rest_next_lt _h

/-- The history that a text holds. -/
def ofText (t : Bytes) : History := readFrom {} t

/-- The history as a text: a line for each. -/
def text (h : History) : Bytes := h.recent.reverse.flatMap (· ++ [Bytes.lineFeed])

end History

end SpanLisp
