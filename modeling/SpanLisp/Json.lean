import SpanLisp.Text.Bytes

/-!
# JSON data

The data that JSON texts denote.  Whole numbers are told apart by their sign, because the reader
gives a number without a minus sign as an unsigned one.  Any scalar can be the key of a map.
-/

namespace SpanLisp

/-- A number that is not written as a whole number: `mantissa` times a power of two, with a sign. -/
structure Binary64 where
  /-- Is the number negative? -/
  negative : Bool
  /-- The significand, below 2^53. -/
  mantissa : Nat
  /-- The exponent of the power of two. -/
  exponent : Int
  deriving DecidableEq, Repr

/-- A datum of JSON without parts. -/
inductive Json.Scalar where
  /-- The null value. -/
  | null
  /-- A truth value. -/
  | bool (b : Bool)
  /-- A whole number written without a sign. -/
  | unsigned (n : Nat)
  /-- A whole number written with a minus sign, or a signed number of the program. -/
  | signed (n : Int)
  /-- A number with a fraction or an exponent. -/
  | real (x : Binary64)
  /-- A string. -/
  | text (s : Bytes)
  deriving DecidableEq, Repr

/-- A datum of JSON. -/
inductive Json where
  /-- A datum without parts. -/
  | scalar (x : Json.Scalar)
  /-- A sequence. -/
  | array (elems : List Json)
  /-- A map, sorted by the labels of its keys. -/
  | object (fields : List (Json.Scalar × Json))
  deriving Repr

/-- The null value. -/
@[match_pattern] abbrev Json.null : Json := .scalar .null

instance : Inhabited Json := ⟨.null⟩

end SpanLisp
