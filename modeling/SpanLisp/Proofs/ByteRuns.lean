import SpanLisp.Text.Utf8
import Mathlib.Tactic.SplitIfs

/-!
# Runs of characters as runs of bytes

A byte beyond ASCII starts a character beyond ASCII, all of whose bytes are beyond ASCII
(`decode_high`).  So a run of characters that satisfy a predicate with one answer beyond ASCII is a
run of bytes (`Agree.run`), whether or not the text is UTF-8.
-/

namespace SpanLisp.Utf8

/-! ### The first character of a text -/

theorem toNat_ofNat_char {n : Nat} (h : n < 0xd800 ∨ 0xe000 ≤ n ∧ n < 0x110000) :
    (Char.ofNat n).toNat = n := by
  have hv : n.isValidChar := by
    unfold Nat.isValidChar
    omega
  unfold Char.ofNat
  rw [dif_pos hv]
  rfl

theorem decode_of_lt {b : UInt8} (h : b < 0x80) (rest : Bytes) :
    decode b rest = (Char.ofNat b.toNat, 0) := by
  unfold decode
  rw [if_pos h]

theorem isTail_iff {b : UInt8} : isTail b = true ↔ 0x80 ≤ b.toNat ∧ b.toNat ≤ 0xbf := by
  simp [isTail, UInt8.le_iff_toNat_le]

theorem follows_bounds {b c : UInt8} (h : follows b c = true) :
    (0x80 ≤ c.toNat ∧ c.toNat ≤ 0xbf) ∧ 0xc2 ≤ b.toNat ∧ b.toNat ≤ 0xf4 ∧
      (b.toNat = 0xe0 → 0xa0 ≤ c.toNat) ∧ (b.toNat = 0xed → c.toNat ≤ 0x9f) ∧
      (b.toNat = 0xf0 → 0x90 ≤ c.toNat) ∧ (b.toNat = 0xf4 → c.toNat ≤ 0x8f) := by
  unfold follows at h
  simp only [← UInt8.toNat_inj, isTail] at h
  split_ifs at h <;>
    simp only [Bool.and_eq_true, decide_eq_true_eq, UInt8.le_iff_toNat_le,
      UInt8.toNat_ofNat] at * <;>
    omega

/-- A byte beyond ASCII never starts an ASCII character, nor one with an ASCII byte. -/
theorem decode_high {b : UInt8} (h : ¬ b < 0x80) (rest : Bytes) :
    0x80 ≤ (decode b rest).1.toNat ∧ ∀ c ∈ rest.take (decode b rest).2, 0x80 ≤ c.toNat := by
  have stray : 0x80 ≤ (replacement, 0).1.toNat ∧
      ∀ c ∈ rest.take (replacement, 0).2, 0x80 ≤ c.toNat := ⟨by decide, by simp⟩
  unfold decode
  rw [if_neg h]
  match rest with
  | [] => exact stray
  | b₁ :: r₁ =>
    by_cases hf : follows b b₁ = false
    · simpa only [if_pos hf] using stray
    · have hb := follows_bounds (Bool.of_not_eq_false hf)
      simp only [if_neg hf]
      by_cases h₂ : b < 0xe0
      · have : b.toNat < 0xe0 := UInt8.lt_iff_toNat_lt.1 h₂
        rw [if_pos h₂, tailBits, toNat_ofNat_char (by omega)]
        simp only [List.take_succ_cons, List.take_zero, List.mem_singleton, forall_eq]
        omega
      · have hlow : ¬ b.toNat < 0xe0 := fun hlt => h₂ (UInt8.lt_iff_toNat_lt.2 hlt)
        simp only [if_neg h₂]
        match r₁ with
        | [] => exact stray
        | b₂ :: r₂ =>
          by_cases ht : isTail b₂ = false
          · simpa only [if_pos ht] using stray
          · have ht₂ := isTail_iff.1 (Bool.of_not_eq_false ht)
            simp only [if_neg ht]
            by_cases h₃ : b < 0xf0
            · have : b.toNat < 0xf0 := UInt8.lt_iff_toNat_lt.1 h₃
              rw [if_pos h₃, tailBits, tailBits, toNat_ofNat_char (by omega)]
              simp only [List.take_succ_cons, List.take_zero, List.mem_cons, List.not_mem_nil,
                or_false, forall_eq_or_imp, forall_eq]
              omega
            · have hlow₃ : ¬ b.toNat < 0xf0 := fun hlt => h₃ (UInt8.lt_iff_toNat_lt.2 hlt)
              simp only [if_neg h₃]
              match r₂ with
              | [] => exact stray
              | b₃ :: r₃ =>
                by_cases ht' : isTail b₃ = false
                · simpa only [if_pos ht'] using stray
                · have ht₃ := isTail_iff.1 (Bool.of_not_eq_false ht')
                  simp only [if_neg ht', tailBits]
                  rw [toNat_ofNat_char (by omega)]
                  simp only [List.take_succ_cons, List.take_zero, List.mem_cons, List.not_mem_nil,
                    or_false, forall_eq_or_imp, forall_eq]
                  omega

theorem runesFrom_eq (n : Nat) (t : Bytes) : runesFrom n t = runes (t.drop n) := by
  fun_induction runesFrom n t with
  | case1 n => simp [runes, runesFrom]
  | case2 n b bs ih => simpa using ih
  | case3 b bs d ih =>
    rw [List.drop_zero]
    unfold runes
    rw [runesFrom]

theorem runes_nil : runes [] = [] := rfl

theorem runes_cons (b : UInt8) (bs : Bytes) :
    runes (b :: bs) =
      ⟨(decode b bs).1, b :: bs.take (decode b bs).2⟩ :: runes (bs.drop (decode b bs).2) := by
  conv => lhs; unfold runes
  rw [runesFrom, runesFrom_eq]

theorem runes_cons_of_lt {b : UInt8} (h : b < 0x80) (bs : Bytes) :
    runes (b :: bs) = ⟨Char.ofNat b.toNat, [b]⟩ :: runes bs := by
  rw [runes_cons, decode_of_lt h]
  rfl

/-! ### Runs -/

/-- The functions agree on ASCII and give one and the same answer beyond it. -/
structure Agree {α : Type} (p : Char → α) (q : UInt8 → α) : Prop where
  /-- The answer on ASCII. -/
  ascii : ∀ b : UInt8, b < 0x80 → p (Char.ofNat b.toNat) = q b
  /-- The answer beyond ASCII. -/
  high : ∀ (c : Char) (b : UInt8), 0x80 ≤ c.toNat → ¬ b < 0x80 → p c = q b

theorem Agree.first {α : Type} {p : Char → α} {q : UInt8 → α} (h : Agree p q) (b : UInt8)
    (bs : Bytes) : p (decode b bs).1 = q b := by
  by_cases hb : b < 0x80
  · rw [decode_of_lt hb]
    exact h.ascii b hb
  · exact h.high _ _ (decode_high hb bs).1 hb

variable {p : Char → Bool} {q : UInt8 → Bool}

theorem Agree.tail (h : Agree p q) {b : UInt8} {bs : Bytes} (hq : q b = true) :
    ∀ c ∈ bs.take (decode b bs).2, q c = true := by
  intro c hc
  by_cases hb : b < 0x80
  · rw [decode_of_lt hb] at hc
    simp at hc
  · have hd := decode_high hb bs
    rw [← hq, ← h.first b bs, h.high _ c hd.1]
    exact fun hlt => absurd (UInt8.lt_iff_toNat_lt.1 hlt) (Nat.not_lt.2 (hd.2 c hc))

/-- A run of characters is a run of bytes, and what follows the one is what follows the other. -/
theorem Agree.run (h : Agree p q) (t : Bytes) :
    ((runes t).takeWhile (p ·.char)).flatMap Rune.bytes = t.takeWhile q ∧
      (runes t).dropWhile (p ·.char) = runes (t.dropWhile q) := by
  induction hn : t.length using Nat.strongRecOn generalizing t with
  | ind n ih =>
    match t with
    | [] => simp [runes_nil]
    | b :: bs =>
      rw [runes_cons]
      by_cases hq : q b = true
      · have hp := (h.first b bs).trans hq
        -- the bytes of the first character are a part of the run, and the rest is shorter
        have hrest := ih (bs.drop (decode b bs).2).length
          (by rw [← hn, List.length_drop, List.length_cons]; omega) _ rfl
        have hsplit : b :: bs = b :: bs.take (decode b bs).2 ++ bs.drop (decode b bs).2 := by
          rw [List.cons_append, List.take_append_drop]
        have hall : ∀ c ∈ b :: bs.take (decode b bs).2, q c = true := by
          intro c hc
          rcases List.mem_cons.1 hc with rfl | hc
          · exact hq
          · exact h.tail hq c hc
        rw [List.takeWhile_cons_of_pos (by exact hp), List.dropWhile_cons_of_pos (by exact hp),
          List.flatMap_cons, hrest.1, hrest.2, hsplit, List.takeWhile_append_of_pos hall,
          List.dropWhile_append_of_pos hall]
        exact ⟨rfl, rfl⟩
      · have hp : ¬ p (decode b bs).1 = true := by rwa [h.first b bs]
        rw [List.takeWhile_cons_of_neg (by exact hp), List.dropWhile_cons_of_neg (by exact hp),
          List.takeWhile_cons_of_neg hq, List.dropWhile_cons_of_neg hq, runes_cons]
        exact ⟨rfl, rfl⟩

end SpanLisp.Utf8
