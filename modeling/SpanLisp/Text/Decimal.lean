import SpanLisp.Text.Bytes

/-!
# Decimal numerals

`Decimal.ofNat` and `Decimal.ofInt` write numbers in base ten without leading zeros, and
`Decimal.toNat` reads a run of digits, leading zeros allowed.  `Decimal.toNat_ofNat` says that
reading undoes writing.
-/

namespace SpanLisp.Decimal

/-- The digit of a number below ten. -/
def digit (n : Nat) : UInt8 := UInt8.ofNat (48 + n)

/-- Is the byte one of the ten digits? -/
def isDigit (b : UInt8) : Bool := 48 ≤ b && b ≤ 57

/-- The number that a digit stands for. -/
def digitValue (b : UInt8) : Nat := b.toNat - 48

/-- The digits of `n`, written in front of `rest`. -/
def write (n : Nat) (rest : Bytes) : Bytes :=
  if n < 10 then digit n :: rest else write (n / 10) (digit (n % 10) :: rest)
termination_by n
decreasing_by omega

/-- The decimal numeral of a natural number. -/
def ofNat (n : Nat) : Bytes := write n []

/-- The decimal numeral of an integer, with a minus sign if it is negative. -/
def ofInt : Int → Bytes
  | .ofNat n => ofNat n
  | .negSucc n => 45 :: ofNat (n + 1)

/-- The number that a run of digits denotes. -/
def toNat (digits : Bytes) : Nat := digits.foldl (fun n b => 10 * n + digitValue b) 0

/-! ### Reading undoes writing -/

theorem digitValue_digit {n : Nat} (h : n < 10) : digitValue (digit n) = n := by
  have : n = 0 ∨ n = 1 ∨ n = 2 ∨ n = 3 ∨ n = 4 ∨ n = 5 ∨ n = 6 ∨ n = 7 ∨ n = 8 ∨ n = 9 := by omega
  rcases this with h | h | h | h | h | h | h | h | h | h <;> subst h <;> decide

theorem isDigit_digit {n : Nat} (h : n < 10) : isDigit (digit n) = true := by
  have : n = 0 ∨ n = 1 ∨ n = 2 ∨ n = 3 ∨ n = 4 ∨ n = 5 ∨ n = 6 ∨ n = 7 ∨ n = 8 ∨ n = 9 := by omega
  rcases this with h | h | h | h | h | h | h | h | h | h <;> subst h <;> decide

theorem write_eq (n : Nat) (rest : Bytes) : write n rest = ofNat n ++ rest := by
  unfold ofNat
  generalize hk : ([] : Bytes) = k
  have main : ∀ r : Bytes, write n (r ++ rest) = write n r ++ rest := by
    intro r
    fun_induction write n r with
    | case1 n r h => rw [write, if_pos h]; rfl
    | case2 n r h ih => rw [write, if_neg h]; exact ih
  rw [← main k, ← hk]
  rfl

theorem ofNat_of_lt {n : Nat} (h : n < 10) : ofNat n = [digit n] := by
  unfold ofNat
  rw [write, if_pos h]

theorem ofNat_of_le {n : Nat} (h : 10 ≤ n) : ofNat n = ofNat (n / 10) ++ [digit (n % 10)] := by
  conv => lhs; unfold ofNat
  rw [write, if_neg (by omega), write_eq]

theorem toNat_append_digit (digits : Bytes) (b : UInt8) :
    toNat (digits ++ [b]) = 10 * toNat digits + digitValue b := by
  simp [toNat]

theorem toNat_ofNat (n : Nat) : toNat (ofNat n) = n := by
  induction n using Nat.strongRecOn with
  | ind n ih =>
    by_cases h : n < 10
    · rw [ofNat_of_lt h]
      simp [toNat, digitValue_digit h]
    · rw [ofNat_of_le (by omega), toNat_append_digit, ih (n / 10) (by omega),
        digitValue_digit (by omega)]
      omega

theorem isDigit_of_mem_ofNat {n : Nat} {b : UInt8} (h : b ∈ ofNat n) : isDigit b = true := by
  induction n using Nat.strongRecOn generalizing b with
  | ind n ih =>
    by_cases hn : n < 10
    · rw [ofNat_of_lt hn, List.mem_singleton] at h
      subst h
      exact isDigit_digit hn
    · rw [ofNat_of_le (by omega), List.mem_append, List.mem_singleton] at h
      rcases h with h | h
      · exact ih (n / 10) (by omega) h
      · subst h
        exact isDigit_digit (by omega)

theorem ofNat_ne_nil (n : Nat) : ofNat n ≠ [] := by
  by_cases h : n < 10
  · rw [ofNat_of_lt h]
    exact List.cons_ne_nil _ _
  · rw [ofNat_of_le (by omega)]
    exact List.append_ne_nil_of_right_ne_nil _ (List.cons_ne_nil _ _)

end SpanLisp.Decimal
