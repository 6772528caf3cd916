import SpanLisp.Expr

/-!
# Outlines of syntax trees

`Expr.outline` lists every field of every node of a tree, one per line and indented by depth.  The
values of the last five fields line up unless the elements take lines of their own.
-/

namespace SpanLisp

namespace Expr

/-- A node's fields of a kind that other kinds leave empty. -/
structure Payload where
  /-- A truth value. -/
  bool : Bool := false
  /-- An integer. -/
  int : Int := 0
  /-- A symbol. -/
  sym : Symbol := 0
  /-- The number of an operator. -/
  op : Int := 0

/-- The fields of a node that depend on its kind. -/
def payload : Expr → Payload
  | bool _ b => { bool := b }
  | integer _ n => { int := n.toInt }
  | keyword _ sym | symbol _ sym => { sym := sym }
  | operator _ op => { op := op.code }
  | list .. | nil .. | string .. | vector .. | unlisted .. => {}

/-- A line of an outline in front of `rest`. -/
def outlineLine (depth : Nat) (text : Bytes) (rest : Bytes) : Bytes :=
  Bytes.copies depth 0x09 ++ text ++ 0x0a :: rest

/-- A value with the name of its type, as outlines show it. -/
def typed (type : String) (value : Bytes) : Bytes :=
  utf8 "(" ++ utf8 type ++ utf8 ")(" ++ value ++ utf8 ")"

/-- The lines of the fields before the elements.  `gap` blanks more follow the names of four of
them. -/
def outlineFields (depth : Nat) (gap : Nat) (e : Expr) (rest : Bytes) : Bytes :=
  let field (name : String) (value : Bytes) : Bytes := utf8 name ++ utf8 ": " ++ value ++ utf8 ","
  let aligned (name : String) (value : Bytes) : Bytes :=
    utf8 name ++ utf8 ":" ++ Bytes.copies (gap + 1) 0x20 ++ value ++ utf8 ","
  let p := e.payload
  outlineLine depth (field "Kind" (typed "caret.ExprKind" (Decimal.ofInt e.kindCode))) <|
  outlineLine depth (utf8 "Span: (caret.Span)(caret.Span\x7b") <|
  outlineLine (depth + 1) (field "Lo" (typed "uint32" (Decimal.ofNat e.span.lo))) <|
  outlineLine (depth + 1) (field "Hi" (typed "uint32" (Decimal.ofNat e.span.hi))) <|
  outlineLine depth (utf8 "\x7d),") <|
  outlineLine depth (aligned "Bool" (typed "bool" (utf8 (if p.bool then "true" else "false")))) <|
  outlineLine depth (aligned "Int" (utf8 " " ++ typed "int64" (Decimal.ofInt p.int))) <|
  outlineLine depth (aligned "Sym" (utf8 " " ++ typed "caret.Symbol" (Decimal.ofNat p.sym))) <|
  outlineLine depth (aligned "Op" (utf8 "  " ++ typed "caret.Operator" (Decimal.ofInt p.op))) rest

/-- The first line of a node. -/
def outlineOpening : Bytes := utf8 "(*caret.Expr)(&caret.Expr\x7b"

/-- The line of a node without elements. -/
def outlineNoElems : Bytes := utf8 "Elems: ([]*caret.Expr)(nil),"

/-- The line before the elements of a node. -/
def outlineElems : Bytes := utf8 "Elems: ([]*caret.Expr)([]*caret.Expr\x7b"

mutual

/-- Lists a node `depth` deep, which ends in `closing`, in front of `rest`. -/
def writeOutline (depth : Nat) (closing : Bytes) (e : Expr) (rest : Bytes) : Bytes :=
  outlineLine depth outlineOpening <|
    match e with
    | list s (x :: xs) =>
      outlineFields (depth + 1) 0 (list s (x :: xs)) <|
      outlineLine (depth + 1) outlineElems <|
      writeOutlines (depth + 2) (x :: xs) <|
      outlineLine (depth + 1) (utf8 "\x7d),") (outlineLine depth closing rest)
    | vector s (x :: xs) =>
      outlineFields (depth + 1) 0 (vector s (x :: xs)) <|
      outlineLine (depth + 1) outlineElems <|
      writeOutlines (depth + 2) (x :: xs) <|
      outlineLine (depth + 1) (utf8 "\x7d),") (outlineLine depth closing rest)
    | e =>
      outlineFields (depth + 1) 1 e <|
      outlineLine (depth + 1) outlineNoElems (outlineLine depth closing rest)

/-- Lists several nodes in front of `rest`. -/
def writeOutlines (depth : Nat) : List Expr → Bytes → Bytes
  | [], rest => rest
  | x :: xs, rest => writeOutline depth (utf8 "\x7d),") x (writeOutlines depth xs rest)

end

/-- Every field of every node of a tree. -/
def outline (e : Expr) : Bytes := e.writeOutline 0 (utf8 "\x7d)") []

end Expr

end SpanLisp
