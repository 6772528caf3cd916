import SpanLisp.Snapshot

/-! A number that fits in a word is read back from its bytes, whatever follows them. -/

namespace SpanLisp

namespace Word

@[simp] theorem count_one : count 1 = 256 := rfl

@[simp] theorem count_two : count 2 = 65536 := rfl

@[simp] theorem count_four : count 4 = 4294967296 := rfl

@[simp] theorem count_eight : count 8 = 18446744073709551616 := rfl

theorem write_eq_append (k : Nat) :
    ∀ (n : Nat) (rest : Bytes), write k n rest = write k n [] ++ rest := by
  induction k with
  | zero =>
    intro n rest
    rfl
  | succ k ih =>
    intro n rest
    rw [write, write, ih, ih _ [_], List.append_assoc]
    rfl

theorem length_write (k : Nat) :
    ∀ (n : Nat) (rest : Bytes), (write k n rest).length = k + rest.length := by
  induction k with
  | zero =>
    intro n rest
    simp [write]
  | succ k ih =>
    intro n rest
    rw [write, ih, List.length_cons]
    omega

theorem take_write (k n : Nat) (rest : Bytes) : (write k n rest).take k = write k n [] := by
  have hlen : (write k n []).length = k := by simp [length_write]
  rw [write_eq_append, List.take_append_of_le_length (by omega)]
  exact List.take_of_length_le (by omega)

theorem drop_write (k n : Nat) (rest : Bytes) : (write k n rest).drop k = rest := by
  have hlen : (write k n []).length = k := by simp [length_write]
  rw [write_eq_append, List.drop_append_of_le_length (by omega), List.drop_of_length_le (by omega)]
  rfl

/-- Reading past the bytes of a word shifts what has been read by the width of the word. -/
theorem foldl_write (k : Nat) :
    ∀ (acc n : Nat) (rest : Bytes),
      (write k n rest).foldl (fun n b => 256 * n + b.toNat) acc =
        rest.foldl (fun n b => 256 * n + b.toNat) (count k * acc + n % count k) := by
  induction k with
  | zero =>
    intro acc n rest
    simp [write, count, Nat.mod_one]
  | succ k ih =>
    intro acc n rest
    have hsplit : n % (256 * count k) = n % 256 + 256 * (n / 256 % count k) := Nat.mod_mul
    have hlow : (UInt8.ofNat n).toNat = n % 256 := by simp
    rw [write, ih, List.foldl_cons, count, hsplit, hlow, Nat.mul_add, Nat.mul_assoc]
    congr 1
    omega

theorem value_write {k n : Nat} (h : n < count k) : value (write k n []) = n := by
  rw [value, foldl_write, List.foldl_nil, Nat.mul_zero, Nat.zero_add, Nat.mod_eq_of_lt h]

theorem ofInt_lt (k : Nat) (i : Int) : ofInt k i < count k := by
  have hpos : (0 : Int) < count k := by
    induction k with
    | zero => decide
    | succ k ih =>
      rw [count]
      omega
  have hlt := Int.emod_lt_of_pos i hpos
  have hnonneg := Int.emod_nonneg i (by omega : (count k : Int) ≠ 0)
  rw [ofInt]
  omega

/-- Two's complement is read back as long as the number has half the range of the word. -/
theorem signed_ofInt {k : Nat} {i : Int} (hlow : -(count k : Int) ≤ 2 * i)
    (hhigh : 2 * i < count k) : signed k (ofInt k i) = i := by
  have hnonneg := Int.emod_nonneg i (by omega : (count k : Int) ≠ 0)
  have hcast : ((ofInt k i : Nat) : Int) = i % (count k : Int) := Int.toNat_of_nonneg hnonneg
  unfold signed
  by_cases hi : 0 ≤ i
  · have hmod : i % (count k : Int) = i := Int.emod_eq_of_lt hi (by omega)
    rw [if_pos (by omega), hcast, hmod]
  · have hmod : i % (count k : Int) = i + count k := by
      rw [← Int.add_emod_right, Int.emod_eq_of_lt (by omega) (by omega)]
    rw [if_neg (by omega), hcast, hmod]
    omega

end Word

namespace Checksum

theorem length_toBytes (n : UInt64) : (toBytes n).length = 8 := rfl

theorem ofLittleEndian_toBytes (n : UInt64) : ofLittleEndian (toBytes n) = n := by
  have hlt := n.toNat_lt
  apply UInt64.toNat_inj.1
  simp [ofLittleEndian, word, toBytes, List.range_succ, Nat.shiftRight_eq_div_pow]
  omega

end Checksum

end SpanLisp
