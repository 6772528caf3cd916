/-!
# Ranges of code points

Classes of characters are given as lists of inclusive ranges of code points.
-/

namespace SpanLisp

/-- Inclusive ranges of code points. -/
abbrev Ranges := List (Nat × Nat)

/-- Does a range hold the code point? -/
def Ranges.has (rs : Ranges) (n : Nat) : Bool := rs.any fun r => r.1 ≤ n && n ≤ r.2

end SpanLisp
