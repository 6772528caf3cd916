import SpanLisp.Symbol

/-!
# Values

A `Value` is what an expression evaluates to: plain data, with functions given by their place in
the table of builtins.  Everything but `nil` and `false` is true (`Value.isTruthy`).
-/

namespace SpanLisp

/-- The result of an evaluation. -/
inductive Value where
  /-- Nothing. -/
  | nil
  /-- A truth value. -/
  | bool (b : Bool)
  /-- The builtin function at a place in the table. -/
  | function (index : Int)
  /-- A 64 bit integer. -/
  | integer (n : Int64)
  /-- A keyword. -/
  | keyword (sym : Symbol)
  /-- A string. -/
  | string (text : Bytes)
  /-- A sequence of values. -/
  | vector (elems : List Value)
  /-- A value of no known kind. -/
  | unlisted (code : Int)
  deriving Repr

instance : Inhabited Value := ⟨.nil⟩

namespace Value

/-- The number of a value's kind. -/
def kindCode : Value → Int
  | nil => 0
  | bool _ => 1
  | function _ => 2
  | integer _ => 3
  | keyword _ => 4
  | string _ => 5
  | vector _ => 6
  | unlisted c => c

/-- The names of the kinds in the order of their numbers. -/
def kindNames : List String :=
  ["nil", "bool", "function", "integer", "keyword", "string", "vector"]

/-- The name of a kind number; a negative number has none. -/
def kindName (code : Int) : Except Defect Bytes :=
  if code < 0 then .error .outOfBounds
  else match kindNames[code.toNat]? with
  | some name => .ok (utf8 name)
  | none => .ok (utf8 "ValueKind(" ++ Decimal.ofInt code ++ utf8 ")")

/-- Everything counts as true except `nil` and `false`. -/
def isTruthy : Value → Bool
  | nil => false
  | bool b => b
  | _ => true

end Value

end SpanLisp
