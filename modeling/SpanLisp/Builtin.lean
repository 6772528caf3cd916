import SpanLisp.Value

/-!
# Builtin functions

The functions of the language: arithmetic and comparison of two 64 bit integers.  A function value
is a place in `Builtin.table`.  Sums, differences and products wrap around; a quotient is rounded
toward zero and refused for the divisor 0 and for -2^63 / -1.
-/

namespace SpanLisp

/-- Why a function does not apply to its arguments. -/
inductive Builtin.Refusal where
  /-- Not two arguments. -/
  | wrongCount
  /-- An argument that is no integer. -/
  | wrongType
  /-- Division by zero. -/
  | divideByZero
  /-- The quotient does not fit in 64 bits. -/
  | overflow (n : Int64)
  /-- A name that is no arithmetic operator. -/
  | unknownArithmetic (name : Bytes)
  /-- A name that is no comparison. -/
  | unknownComparison (name : Bytes)
  deriving DecidableEq, Repr

namespace Builtin

/-- What a refusal reads like. -/
def Refusal.message : Refusal → Bytes
  | wrongCount => utf8 "wrong number of arguments"
  | wrongType => utf8 "operands must be integers"
  | divideByZero => utf8 "integer division by zero"
  | overflow n => Decimal.ofInt n.toInt ++ utf8 " / -1 overflows"
  | unknownArithmetic name => utf8 "unknown arithmetic operator '" ++ name ++ utf8 "'"
  | unknownComparison name => utf8 "unknown comparison '" ++ name ++ utf8 "'"

/-- The two integers that every function takes. -/
def twoIntegers : List Value → Except Refusal (Int64 × Int64)
  | [.integer a, .integer b] => .ok (a, b)
  | [_, _] => .error .wrongType
  | _ => .error .wrongCount

/-- The quotient rounded toward zero. -/
def divide (a b : Int64) : Except Refusal Int64 :=
  if b = 0 then .error .divideByZero
  else if a = Int64.minValue ∧ b = -1 then .error (.overflow a)
  else .ok (a / b)

/-- Applies the arithmetic operator with the given name. -/
def arithmetic (name : Bytes) (args : List Value) : Except Refusal Value :=
  match twoIntegers args with
  | .error e => .error e
  | .ok (a, b) =>
    if name = utf8 "+" then .ok (.integer (a + b))
    else if name = utf8 "-" then .ok (.integer (a - b))
    else if name = utf8 "*" then .ok (.integer (a * b))
    else if name = utf8 "/" then (divide a b).map .integer
    else .error (.unknownArithmetic name)

/-- Applies the comparison with the given name. -/
def compare (name : Bytes) (args : List Value) : Except Refusal Value :=
  match twoIntegers args with
  | .error e => .error e
  | .ok (a, b) =>
    if name = utf8 "<" then .ok (.bool (a < b))
    else if name = utf8 "<=" then .ok (.bool (a ≤ b))
    else if name = utf8 ">" then .ok (.bool (b < a))
    else if name = utf8 ">=" then .ok (.bool (b ≤ a))
    else .error (.unknownComparison name)

end Builtin

/-- A function of the language. -/
structure Builtin where
  /-- Its name. -/
  name : Bytes
  /-- What it does with its arguments. -/
  apply : List Value → Except Builtin.Refusal Value

namespace Builtin

/-- The arithmetic function with the given name. -/
def ofArithmetic (name : String) : Builtin := ⟨utf8 name, arithmetic (utf8 name)⟩

/-- The comparison with the given name. -/
def ofComparison (name : String) : Builtin := ⟨utf8 name, compare (utf8 name)⟩

/-- All functions, in the order of their places. -/
def table : List Builtin :=
  [ofArithmetic "+", ofArithmetic "-", ofArithmetic "*", ofArithmetic "/",
    ofComparison "<", ofComparison "<=", ofComparison ">", ofComparison ">="]

/-- The names of all functions. -/
def names : List Bytes := table.map Builtin.name

/-- The place of the function with the given name. -/
def find? (name : Bytes) : Option Nat := names.idxOf? name

/-- The function at a place. -/
def get? (index : Int) : Option Builtin := if index < 0 then none else table[index.toNat]?

/-- The name of the function at a place; a place outside the table is a defect. -/
def nameAt (index : Int) : Except Defect Bytes :=
  match get? index with
  | some f => .ok f.name
  | none => .error (.noBuiltin index)

end Builtin

end SpanLisp
