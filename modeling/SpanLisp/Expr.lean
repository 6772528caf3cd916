import SpanLisp.Symbol

/-!
# Syntax trees

An `Expr` is one node of a syntax tree with the span of its text.  Strings keep no payload: their
text is read back out of the source.  `Expr.Kind.name` names the kinds.
-/

namespace SpanLisp

/-- A node of a syntax tree. -/
inductive Expr where
  /-- `true` or `false`. -/
  | bool (span : Span) (b : Bool)
  /-- A decimal literal. -/
  | integer (span : Span) (n : Int64)
  /-- A name after a colon. -/
  | keyword (span : Span) (sym : Symbol)
  /-- A sequence in parentheses. -/
  | list (span : Span) (elems : List Expr)
  /-- `nil`, or nothing at all. -/
  | nil (span : Span)
  /-- A special form's name at the head of a list. -/
  | operator (span : Span) (op : Operator)
  /-- A string literal. -/
  | string (span : Span)
  /-- A name. -/
  | symbol (span : Span) (sym : Symbol)
  /-- A sequence in square brackets. -/
  | vector (span : Span) (elems : List Expr)
  /-- A node of no known kind. -/
  | unlisted (span : Span) (code : Int)
  deriving Repr

instance : Inhabited Expr := ⟨.nil (.point 0)⟩

namespace Expr

/-- Where the text of a node stands. -/
def span : Expr → Span
  | bool s _ | integer s _ | keyword s _ | list s _ | nil s | operator s _ | string s | symbol s _
  | vector s _ | unlisted s _ => s

/-- The number of a node's kind. -/
def kindCode : Expr → Int
  | bool .. => 0
  | integer .. => 1
  | keyword .. => 2
  | list .. => 3
  | nil .. => 4
  | operator .. => 5
  | string .. => 6
  | symbol .. => 7
  | vector .. => 8
  | unlisted _ c => c

/-- The names of the kinds in the order of their numbers. -/
def kindNames : List String :=
  ["Bool", "Integer", "Keyword", "List", "Nil", "Operator", "String", "Symbol", "Vector"]

/-- The name of a kind number; a negative number has none. -/
def kindName (code : Int) : Except Defect Bytes :=
  if code < 0 then .error .outOfBounds
  else match kindNames[code.toNat]? with
  | some name => .ok (utf8 name)
  | none => .ok (utf8 "ExprKind(" ++ Decimal.ofInt code ++ utf8 ")")

end Expr

end SpanLisp
