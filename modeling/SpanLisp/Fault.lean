import SpanLisp.Defect

/-!
# What can go wrong with a program

`SyntaxError` and `EvalError` are the mistakes a program text can contain, each a kind with the
span it is blamed on.  `Fault` is any reason for an evaluation to end without a value: one of the
two, or a `Defect` of the program itself.
-/

namespace SpanLisp

/-- The kinds of syntax error. -/
inductive SyntaxError.Kind where
  /-- More than one expression on a line. -/
  | expectedEndOfLine
  /-- A closing delimiter that does not match the open one. -/
  | incorrectClose
  /-- An integer literal beyond 64 bits. -/
  | integerTooLarge
  /-- The text ends inside a sequence. -/
  | unclosed
  /-- A character that starts no token. -/
  | unknownStart
  /-- The text ends inside a string. -/
  | unterminatedString
  /-- A closing delimiter with nothing open. -/
  | unmatchedClose
  /-- An opening brace. -/
  | unsupportedDelimiter
  /-- More open sequences than the limit allows. -/
  | nestingTooDeep
  /-- A number that names no kind. -/
  | unlisted (code : Int)
  deriving DecidableEq, Repr

namespace SyntaxError.Kind

/-- The kinds in the order of their numbers. -/
def all : List Kind :=
  [expectedEndOfLine, incorrectClose, integerTooLarge, unclosed, unknownStart, unterminatedString,
    unmatchedClose, unsupportedDelimiter, nestingTooDeep]

/-- The number of a kind. -/
def code : Kind → Int
  | expectedEndOfLine => 0
  | incorrectClose => 1
  | integerTooLarge => 2
  | unclosed => 3
  | unknownStart => 4
  | unterminatedString => 5
  | unmatchedClose => 6
  | unsupportedDelimiter => 7
  | nestingTooDeep => 8
  | unlisted c => c

/-- The kind with a given number. -/
def ofCode (code : Int) : Kind := (all.find? (·.code = code)).getD (unlisted code)

/-- What a kind of syntax error reads like. -/
def message : Kind → Bytes
  | expectedEndOfLine => utf8 "expected end of line"
  | incorrectClose => utf8 "incorrect close delimiter"
  | integerTooLarge => utf8 "integer literal is too large"
  | unclosed => utf8 "un-closed delimiter"
  | unknownStart => utf8 "unknown start of token"
  | unterminatedString => utf8 "unterminated string literal"
  | unmatchedClose => utf8 "unmatched close delimiter"
  | unsupportedDelimiter => utf8 "unsupported delimiter"
  | nestingTooDeep => utf8 "nesting too deep"
  | unlisted c => utf8 "SyntaxErrorKind(" ++ Decimal.ofInt c ++ utf8 ")"

end SyntaxError.Kind

/-- A mistake in the form of a program. -/
structure SyntaxError where
  /-- What is wrong. -/
  kind : SyntaxError.Kind
  /-- Where it is wrong. -/
  span : Span
  deriving DecidableEq, Repr

/-- A syntax error with its position, on one line. -/
def SyntaxError.text (e : SyntaxError) : Bytes :=
  utf8 "syntax error: " ++ e.kind.message ++ utf8 " at " ++ e.span.text

/-- The kinds of evaluation error. -/
inductive EvalError.Kind where
  /-- The list `()` has no value. -/
  | emptyList
  /-- The head of a call is bound to something other than a function. -/
  | expectedFunction
  /-- A name was expected. -/
  | expectedSymbol
  /-- A name without a binding. -/
  | undefinedSymbol
  /-- A form or a function that does not apply to its arguments. -/
  | unsupportedOperation
  /-- More nested evaluations than the limit allows. -/
  | depthExceeded
  /-- A number that names no kind. -/
  | unlisted (code : Int)
  deriving DecidableEq, Repr

namespace EvalError.Kind

/-- The kinds in the order of their numbers. -/
def all : List Kind :=
  [emptyList, expectedFunction, expectedSymbol, undefinedSymbol, unsupportedOperation,
    depthExceeded]

/-- The number of a kind. -/
def code : Kind → Int
  | emptyList => 0
  | expectedFunction => 1
  | expectedSymbol => 2
  | undefinedSymbol => 3
  | unsupportedOperation => 4
  | depthExceeded => 5
  | unlisted c => c

/-- The kind with a given number. -/
def ofCode (code : Int) : Kind := (all.find? (·.code = code)).getD (unlisted code)

/-- What a kind of evaluation error reads like. -/
def message : Kind → Bytes
  | emptyList => utf8 "empty list"
  | expectedFunction => utf8 "expected function"
  | expectedSymbol => utf8 "expected symbol"
  | undefinedSymbol => utf8 "undefined symbol"
  | unsupportedOperation => utf8 "unsupported operation"
  | depthExceeded => utf8 "recursion depth exceeded"
  | unlisted c => utf8 "EvalErrorKind(" ++ Decimal.ofInt c ++ utf8 ")"

end EvalError.Kind

/-- A mistake in the meaning of a program. -/
structure EvalError where
  /-- What is wrong. -/
  kind : EvalError.Kind
  /-- Where it is wrong. -/
  span : Span
  deriving DecidableEq, Repr

/-- An evaluation error with its position, on one line. -/
def EvalError.text (e : EvalError) : Bytes :=
  utf8 "eval error: " ++ e.kind.message ++ utf8 " at " ++ e.span.text

/-- A reason for an evaluation to end without a value. -/
inductive Fault where
  /-- The text does not parse. -/
  | malformed (e : SyntaxError)
  /-- The expression has no value. -/
  | failed (e : EvalError)
  /-- The program broke one of its own promises. -/
  | defect (d : Defect)
  deriving DecidableEq, Repr

end SpanLisp
