import SpanLisp.Text.Decimal

/-!
# Operators

The special forms `def!`, `if` and `let*`, their spelling and their numbers.
-/

namespace SpanLisp

/-- The special forms. -/
inductive Operator where
  /-- `def!` binds a name in the top frame. -/
  | define
  /-- `if` evaluates one of two branches. -/
  | cond
  /-- `let*` binds names in a frame of its own. -/
  | letStar
  /-- A number that names no special form. -/
  | unlisted (code : Int)
  deriving DecidableEq, Repr

namespace Operator

/-- The operator with a given number. -/
def ofCode (code : Int) : Operator :=
  if code = 0 then .define else if code = 1 then .cond else if code = 2 then .letStar
  else .unlisted code

/-- The number of an operator. -/
def code : Operator → Int
  | define => 0
  | cond => 1
  | letStar => 2
  | unlisted c => c

/-- The spelling of an operator in programs. -/
def name : Operator → Bytes
  | define => utf8 "def!"
  | cond => utf8 "if"
  | letStar => utf8 "let*"
  | unlisted c => utf8 "Operator(" ++ Decimal.ofInt c ++ utf8 ")"

/-- The operator that a name spells, if any. -/
def ofName? (name : Bytes) : Option Operator :=
  if name = utf8 "def!" then some define
  else if name = utf8 "if" then some cond
  else if name = utf8 "let*" then some letStar
  else none

end Operator

end SpanLisp
