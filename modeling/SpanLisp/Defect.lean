import SpanLisp.Span
import SpanLisp.Operator

/-!
# Defects

A `Defect` is a broken promise between parts of the program, as opposed to a mistake in the
program text: a span outside its text, a symbol of another interner, an operator where none can
stand.  `Defect.message` words them.
-/

namespace SpanLisp

/-- A broken promise between parts of the program. -/
inductive Defect where
  /-- Bounds out of order. -/
  | invalidSpan (lo hi : Int)
  /-- A span that leaves its text. -/
  | spanOutOfRange (span : Span) (size : Nat)
  /-- A symbol that the interner never gave out. -/
  | foreignSymbol (sym : Nat) (known : Nat)
  /-- A function value outside the table of builtins. -/
  | noBuiltin (index : Int)
  /-- An operator evaluated as a value. -/
  | misplacedOperator (op : Operator) (span : Span)
  /-- A form whose operator has no meaning. -/
  | unknownOperator (op : Operator)
  /-- An expression of no known kind. -/
  | unknownKind (code : Int)
  /-- A frame asked of an empty stack. -/
  | underflow
  /-- The global frame in the place of a local one. -/
  | globalOnTop
  /-- A stack whose arena does not end with its top. -/
  | corruptStack (top : Int) (places : Nat)
  /-- An access beyond the bounds of a table or a text. -/
  | outOfBounds
  deriving DecidableEq, Repr

namespace Defect

/-- The wording of a stack underflow. -/
def underflowText : Bytes := utf8 "invalid stack access: underflow"

/-- The wording of an attempt to take the global frame away. -/
def popGlobalText : Bytes := utf8 "cannot pop the global scope"

/-- The wording of a kind number: negative numbers have no name at all. -/
def kindText (code : Int) : Bytes :=
  if code < 0 then
    utf8 "%!v(PANIC=String method: runtime error: index out of range [" ++ Decimal.ofInt code ++
      utf8 "])"
  else utf8 "ExprKind(" ++ Decimal.ofInt code ++ utf8 ")"

/-- What a defect reads like. -/
def message : Defect → Bytes
  | invalidSpan lo hi =>
    utf8 "invalid span [" ++ Decimal.ofInt lo ++ utf8 "," ++ Decimal.ofInt hi ++ utf8 ")"
  | spanOutOfRange span size =>
    utf8 "span " ++ span.text ++ utf8 " out of range for source of length " ++ Decimal.ofNat size
  | foreignSymbol sym known =>
    utf8 "symbol " ++ Decimal.ofNat sym ++ utf8 " was not interned here (" ++
      Decimal.ofNat known ++ utf8 " symbols known)"
  | noBuiltin index => utf8 "no builtin function at index " ++ Decimal.ofInt index
  | misplacedOperator op span =>
    utf8 "operator " ++ op.name ++ utf8 " evaluated outside head position at " ++ span.text
  | unknownOperator op => utf8 "unknown operator " ++ op.name
  | unknownKind code => utf8 "unknown expression kind " ++ kindText code
  | underflow => underflowText
  | globalOnTop => popGlobalText
  | corruptStack top places =>
    utf8 "stack is corrupt: tos=" ++ Decimal.ofInt top ++ utf8 " but " ++ Decimal.ofNat places ++
      utf8 " frames"
  | outOfBounds => utf8 "runtime error"

end Defect

end SpanLisp
