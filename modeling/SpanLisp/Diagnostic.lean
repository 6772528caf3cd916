import SpanLisp.Fault
import SpanLisp.Source
import SpanLisp.Text.Width

/-!
# Diagnostics

`Diagnostic.render` shows an error under the line it is about: the message, the line, and a mark
under the first column of the span with tildes under the rest of it.  Columns are those of a
terminal, so that wide characters line up, and tabs are kept.  To cut outside the text is a defect.
A `Report` is an error on its way to the reader, which may have been given contexts; they are shown
only if there is no line to show.
-/

namespace SpanLisp

/-- An error that is handed on. -/
inductive Report where
  /-- A mistake in the form of a program. -/
  | malformed (e : SyntaxError)
  /-- A mistake in the meaning of a program. -/
  | failed (e : EvalError)
  /-- Anything else. -/
  | plain (message : Bytes)
  /-- An error with a context in front of it. -/
  | wrapped (context : Bytes) (inner : Report)
  deriving DecidableEq, Repr

namespace Report

/-- What an error reads like in one line. -/
def text : Report → Bytes
  | malformed e => e.text
  | failed e => e.text
  | plain message => message
  | wrapped context inner => context ++ utf8 ": " ++ inner.text

/-- The message and the span of the mistake that an error is about, whatever its contexts. -/
def marked? : Report → Option (Bytes × Span)
  | malformed e => some (e.kind.message, e.span)
  | failed e => some (e.kind.message, e.span)
  | plain _ => none
  | wrapped _ inner => inner.marked?

/-- The report of a fault. -/
def ofFault : Fault → Report
  | .malformed e => malformed e
  | .failed e => failed e
  | .defect d => plain d.message

end Report

namespace Diagnostic

/-- The blanks that bring the mark under its column: a tab for a tab, spaces for the rest. -/
def padding (before : Bytes) : Bytes :=
  (Utf8.runes before).flatMap fun r =>
    if r.char = '\t' then [0x09] else Bytes.copies (Width.ofChar r.char) 0x20

/-- Shows a message under the first line of a span, which may lie outside the text. -/
def render (text : Bytes) (message : Bytes) (span : Span) : Except Defect Bytes := do
  let lo := min span.lo text.length
  let (line, start) := lineAt text lo
  let hi := max lo (min span.hi (start + line.length))
  let before ← slice text ⟨start, lo⟩
  let marked ← slice text ⟨lo, hi⟩
  return utf8 "error: " ++ message ++ utf8 "\n" ++ line ++ utf8 "\n" ++ padding before ++
    utf8 "^" ++ Bytes.copies (Width.ofText marked - 1) 0x7e ++ utf8 "\n"

/-- Shows a message that belongs to no line. -/
def renderPlain (message : Bytes) : Bytes := utf8 "error: " ++ message ++ utf8 "\n"

/-- What is shown: the defect by itself, if there is one. -/
def shown : Except Defect Bytes → Bytes
  | .ok t => t
  | .error d => renderPlain d.message

/-- Shows a syntax error. -/
def ofSyntaxError (text : Bytes) (e : SyntaxError) : Except Defect Bytes :=
  render text e.kind.message e.span

/-- Shows an evaluation error. -/
def ofEvalError (text : Bytes) (e : EvalError) : Except Defect Bytes :=
  render text e.kind.message e.span

/-- Shows an error: under its line if it is about a mistake in the text, else by itself. -/
def ofReport (text : Bytes) (r : Report) : Except Defect Bytes :=
  match r.marked? with
  | some (message, span) => render text message span
  | none => .ok (renderPlain r.text)

/-- Shows why an evaluation ended without a value. -/
def ofFault (text : Bytes) (f : Fault) : Except Defect Bytes := ofReport text (.ofFault f)

end Diagnostic

end SpanLisp
