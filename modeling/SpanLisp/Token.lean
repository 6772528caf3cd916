import SpanLisp.Span

/-!
# Tokens

A `Token` is a piece of the source text: a delimiter, a literal, a name or a run of blanks.  Every
token keeps its span and its bytes; the tokens of a text laid end to end give back the text.
-/

namespace SpanLisp

/-- The three pairs of delimiters. -/
inductive Delim where
  /-- `(` and `)`. -/
  | paren
  /-- `[` and `]`. -/
  | bracket
  /-- `{` and `}`, which no expression uses. -/
  | brace
  deriving DecidableEq, Repr

namespace Delim

/-- The number of a delimiter. -/
def code : Delim → Nat
  | paren => 0
  | bracket => 1
  | brace => 2

/-- The delimiter with a given number; every other number means braces. -/
def ofCode (code : Int) : Delim :=
  if code = 0 then paren else if code = 1 then bracket else brace

/-- The opening character. -/
def opening : Delim → Bytes
  | paren => utf8 "("
  | bracket => utf8 "["
  | brace => utf8 "\x7b"

/-- The closing character. -/
def closing : Delim → Bytes
  | paren => utf8 ")"
  | bracket => utf8 "]"
  | brace => utf8 "\x7d"

end Delim

/-- The kinds of token. -/
inductive Token.Kind where
  /-- An opening delimiter. -/
  | opening (d : Delim)
  /-- A closing delimiter. -/
  | closing (d : Delim)
  /-- A run of digits. -/
  | integer
  /-- A string with its quotes. -/
  | string
  /-- A name, an operator, a keyword or one of `true`, `false` and `nil`. -/
  | symbol
  /-- A run of blanks. -/
  | blank
  deriving DecidableEq, Repr

/-- A piece of the source text. -/
structure Token where
  /-- What the piece is. -/
  kind : Token.Kind
  /-- Where it stands. -/
  span : Span
  /-- Its bytes. -/
  text : Bytes
  deriving DecidableEq, Repr

namespace Token

/-- The number of a kind of token. -/
def Kind.code : Kind → Nat
  | opening _ => 1
  | closing _ => 2
  | integer => 3
  | string => 4
  | symbol => 5
  | blank => 6

/-- What stands for the token before the first. -/
def emptyLabel : Bytes := utf8 "Empty"

/-- What stands for the token after the last. -/
def endLabel : Bytes := utf8 "End"

/-- A token as listings show it: its kind with the delimiter or the span. -/
def label (t : Token) : Bytes :=
  match t.kind with
  | .opening d => utf8 "Open" ++ d.opening
  | .closing d => utf8 "Close" ++ d.closing
  | .integer => utf8 "Integer" ++ t.span.text
  | .string => utf8 "String" ++ t.span.text
  | .symbol => utf8 "Symbol" ++ t.span.text
  | .blank => utf8 "Whitespace" ++ t.span.text

end Token

end SpanLisp
