import Mathlib.Tactic.SplitIfs
import SpanLisp.Proofs.Words

/-! The MessagePack reader takes back every item that the writer puts in front of other bytes. -/

namespace SpanLisp

namespace Stored

mutual

/-- Does the value have a written form?  Lengths take at most four bytes, and a kind without a name
has none of the numbers of the others. -/
def Fits : Stored → Prop
  | .string t | .keyword t | .function t => t.length < 4294967296
  | .vector elems => elems.length < 4294967296 ∧ FitsAll elems
  | .unlisted code => code.toInt < 0 ∨ 6 < code.toInt
  | .nil | .bool _ | .integer _ => True

/-- Does every one of the values have a written form? -/
def FitsAll : List Stored → Prop
  | [] => True
  | s :: ss => s.Fits ∧ FitsAll ss

end

end Stored

/-- Does the binding have a written form? -/
structure Entry.Fits (e : Entry) : Prop where
  name_lt : e.name.length < 4294967296
  value_fits : e.value.Fits

namespace Pack

/-! ### Words -/

theorem readWord_write {k n : Nat} (h : n < Word.count k) (rest : Bytes) :
    readWord k (Word.write k n rest) = .ok (n, rest) := by
  rw [readWord, take, if_neg (by rw [Word.length_write]; omega), Word.take_write, Word.drop_write]
  change Except.ok (Word.value _, rest) = _
  rw [Word.value_write h]

theorem take_append (s rest : Bytes) : take s.length (s ++ rest) = .ok (s, rest) := by
  rw [take, if_neg (by rw [List.length_append]; omega), List.take_left, List.drop_left]

theorem readSized_write {k : Nat} {s : Bytes} (h : s.length < Word.count k) (rest : Bytes) :
    readSized k (Word.write k s.length (s ++ rest)) = .ok (s, rest) := by
  rw [readSized, readWord_write h]
  exact take_append s rest

theorem readSigned_writeSigned {k : Nat} {n : Int64} (hlow : -(Word.count k : Int) ≤ 2 * n.toInt)
    (hhigh : 2 * n.toInt < Word.count k) (rest : Bytes) :
    readSigned k (writeSigned k n.toInt rest) = .ok (n, rest) := by
  rw [readSigned, writeSigned, readWord_write (Word.ofInt_lt k _)]
  change Except.ok (Int64.ofInt (Word.signed k _), rest) = _
  rw [Word.signed_ofInt hlow hhigh, Int64.ofInt_toInt]

/-! ### Items -/

/-- A first byte that carries a small number lies in the range of its family. -/
theorem small_form (lo hi : UInt8) {n : Nat} (h : lo.toNat + n < hi.toNat) :
    (UInt8.ofNat (lo.toNat + n)).toNat = lo.toNat + n ∧
      (lo ≤ UInt8.ofNat (lo.toNat + n) && UInt8.ofNat (lo.toNat + n) < hi) = true := by
  have hb : (UInt8.ofNat (lo.toNat + n)).toNat = lo.toNat + n := by
    have := hi.toNat_lt
    exact UInt8.toNat_ofNat_of_lt' (by change _ < 256; omega)
  refine ⟨hb, ?_⟩
  simp only [UInt8.le_iff_toNat_le, UInt8.lt_iff_toNat_lt, hb, Bool.and_eq_true, decide_eq_true_eq]
  omega

/-- The numbers from -32 to 127 are bytes of their own. -/
theorem readInt_small {n : Int64} (hlow : -32 ≤ n.toInt) (hhigh : n.toInt ≤ 127) (rest : Bytes) :
    readInt (writeSigned 1 n.toInt rest) = .ok (n, rest) := by
  change readInt (UInt8.ofNat (Word.ofInt 1 n.toInt) :: rest) = _
  have hlt : Word.ofInt 1 n.toInt < 256 := Word.ofInt_lt 1 n.toInt
  have hb : (UInt8.ofNat (Word.ofInt 1 n.toInt)).toNat = Word.ofInt 1 n.toInt :=
    UInt8.toNat_ofNat_of_lt' hlt
  have hword : (Word.ofInt 1 n.toInt : Int) = n.toInt % 256 :=
    Int.toNat_of_nonneg (Int.emod_nonneg _ (by decide))
  by_cases hneg : 0 ≤ n.toInt
  · have hsmall : UInt8.ofNat (Word.ofInt 1 n.toInt) < 0x80 := by
      rw [UInt8.lt_iff_toNat_lt, hb]
      change _ < 128
      omega
    have hval : (Word.ofInt 1 n.toInt : Int) = n.toInt := by omega
    rw [readInt, if_pos hsmall, hb, ← Int64.ofInt_eq_ofNat, hval, Int64.ofInt_toInt]
  · have hbig : ¬ UInt8.ofNat (Word.ofInt 1 n.toInt) < 0x80 := by
      rw [UInt8.lt_iff_toNat_lt, hb]
      change ¬ _ < 128
      omega
    have htop : 0xe0 ≤ UInt8.ofNat (Word.ofInt 1 n.toInt) := by
      rw [UInt8.le_iff_toNat_le, hb]
      change 224 ≤ _
      omega
    have hval : (Word.ofInt 1 n.toInt : Int) - 256 = n.toInt := by omega
    rw [readInt, if_neg hbig, if_pos htop, hb, hval, Int64.ofInt_toInt]

theorem readInt_writeInt (n : Int64) (rest : Bytes) :
    readInt (writeInt n rest) = .ok (n, rest) := by
  have hlow := n.le_toInt
  have hhigh := n.toInt_lt
  simp only [writeInt]
  split_ifs with h₁ h₂ h₃ h₄
  · exact readInt_small h₁.1 h₁.2 rest
  · change readSigned 1 (writeSigned 1 n.toInt rest) = _
    apply readSigned_writeSigned <;> simp only [Word.count_one] <;> omega
  · change readSigned 2 (writeSigned 2 n.toInt rest) = _
    apply readSigned_writeSigned <;> simp only [Word.count_two] <;> omega
  · change readSigned 4 (writeSigned 4 n.toInt rest) = _
    apply readSigned_writeSigned <;> simp only [Word.count_four] <;> omega
  · change readSigned 8 (writeSigned 8 n.toInt rest) = _
    apply readSigned_writeSigned <;> simp only [Word.count_eight] <;> omega

theorem readString_writeString {s : Bytes} (h : s.length < 4294967296) (rest : Bytes) :
    readString (writeString s rest) = .ok (s, rest) := by
  simp only [writeString]
  split_ifs with h₁ h₂ h₃
  · have hlt : (0xa0 : UInt8).toNat + s.length < (0xc0 : UInt8).toNat := by
      change 160 + s.length < 192
      omega
    obtain ⟨hb, hrange⟩ := small_form 0xa0 0xc0 hlt
    change readString (UInt8.ofNat ((0xa0 : UInt8).toNat + s.length) :: _) = _
    rw [readString, if_pos hrange, hb]
    change take (160 + s.length - 160) _ = _
    rw [Nat.add_sub_cancel_left, take_append]
  · change readSized 1 (Word.write 1 s.length (s ++ rest)) = _
    exact readSized_write h₂ rest
  · change readSized 2 (Word.write 2 s.length (s ++ rest)) = _
    exact readSized_write h₃ rest
  · change readSized 4 (Word.write 4 s.length (s ++ rest)) = _
    exact readSized_write h rest

theorem readArrayHead_writeArrayHead {n : Nat} (h : n < 4294967296) (rest : Bytes) :
    readArrayHead (writeArrayHead n rest) = .ok (n, rest) := by
  simp only [writeArrayHead]
  split_ifs with h₁ h₂
  · have hlt : (0x90 : UInt8).toNat + n < (0xa0 : UInt8).toNat := by
      change 144 + n < 160
      omega
    obtain ⟨hb, hrange⟩ := small_form 0x90 0xa0 hlt
    change readArrayHead (UInt8.ofNat ((0x90 : UInt8).toNat + n) :: _) = _
    rw [readArrayHead, if_pos hrange, hb]
    change Except.ok (144 + n - 144, rest) = _
    rw [Nat.add_sub_cancel_left]
  · change readWord 2 (Word.write 2 n rest) = _
    exact readWord_write h₂ rest
  · change readWord 4 (Word.write 4 n rest) = _
    exact readWord_write h rest

theorem readMapHead_writeMapHead {n : Nat} (h : n < 4294967296) (rest : Bytes) :
    readMapHead (writeMapHead n rest) = .ok (n, rest) := by
  simp only [writeMapHead]
  split_ifs with h₁ h₂
  · have hlt : (0x80 : UInt8).toNat + n < (0x90 : UInt8).toNat := by
      change 128 + n < 144
      omega
    obtain ⟨hb, hrange⟩ := small_form 0x80 0x90 hlt
    change readMapHead (UInt8.ofNat ((0x80 : UInt8).toNat + n) :: _) = _
    rw [readMapHead, if_pos hrange, hb]
    change Except.ok (128 + n - 128, rest) = _
    rw [Nat.add_sub_cancel_left]
  · change readWord 2 (Word.write 2 n rest) = _
    exact readWord_write h₂ rest
  · change readWord 4 (Word.write 4 n rest) = _
    exact readWord_write h rest

/-! ### Values -/

theorem length_writeSigned (k : Nat) (n : Int) (rest : Bytes) :
    (writeSigned k n rest).length = k + rest.length := Word.length_write k _ rest

theorem length_lt_writeInt (n : Int64) (rest : Bytes) :
    rest.length < (writeInt n rest).length := by
  simp only [writeInt]
  split_ifs <;> simp only [List.length_cons, length_writeSigned] <;> omega

theorem length_lt_writeString (s rest : Bytes) : rest.length < (writeString s rest).length := by
  simp only [writeString]
  split_ifs <;> simp only [List.length_cons, List.length_append, Word.length_write] <;> omega

theorem length_lt_writeArrayHead (n : Nat) (rest : Bytes) :
    rest.length < (writeArrayHead n rest).length := by
  simp only [writeArrayHead]
  split_ifs <;> simp only [List.length_cons, Word.length_write] <;> omega

mutual

theorem length_lt_writeStored (s : Stored) (rest : Bytes) :
    rest.length < (writeStored s rest).length := by
  have hhead (p : Bytes) : p.length < (writeArrayHead 2 (writeInt s.kindCode p)).length :=
    Nat.lt_trans (length_lt_writeInt _ _) (length_lt_writeArrayHead _ _)
  rw [writeStored.eq_def]
  refine Nat.lt_of_le_of_lt ?_ (hhead _)
  cases s with
  | nil | unlisted code | bool b => exact Nat.le_succ _
  | integer n => exact Nat.le_of_lt (length_lt_writeInt n rest)
  | string t | keyword t | function t => exact Nat.le_of_lt (length_lt_writeString t rest)
  | vector elems =>
    have hall := length_le_writeAll elems rest
    have hhead := length_lt_writeArrayHead elems.length (writeAll elems rest)
    exact (by omega : rest.length ≤ (writeArrayHead elems.length (writeAll elems rest)).length)

theorem length_le_writeAll (ss : List Stored) (rest : Bytes) :
    ss.length + rest.length ≤ (writeAll ss rest).length := by
  cases ss with
  | nil => simp only [writeAll, List.length_nil, Nat.zero_add, Nat.le_refl]
  | cons s ss =>
    have hhead := length_lt_writeStored s (writeAll ss rest)
    have htail := length_le_writeAll ss rest
    rw [writeAll, List.length_cons]
    omega

end

theorem readStored_head (fuel : Nat) (kind : Int64) (payload : Bytes) :
    readStored (fuel + 1) (writeArrayHead 2 (writeInt kind payload)) =
      readPayload (readStored fuel) kind payload := by
  rw [readStored, readArrayHead_writeArrayHead (by decide)]
  simp only [ne_eq, not_true_eq_false, ↓reduceIte, readInt_writeInt]

theorem readPayload_vector (read : Bytes → Except Failure (Stored × Bytes)) {n : Nat}
    (h : n < 4294967296) (t : Bytes) :
    readPayload read 6 (writeArrayHead n t) =
      (readCounted read n t).map fun r => (.vector r.1, r.2) := by
  rw [readPayload, if_neg (by decide), if_neg (by decide), if_neg (by decide), if_neg (by decide),
    if_neg (by decide), if_pos rfl]
  simp only [readArrayHead_writeArrayHead h]

theorem readPayload_unlisted (read : Bytes → Except Failure (Stored × Bytes)) {code : Int64}
    (h : code.toInt < 0 ∨ 6 < code.toInt) (rest : Bytes) :
    readPayload read code (0xc0 :: rest) = .ok (.unlisted code, rest) := by
  have hne (n : Int64) (h₀ : 0 ≤ n.toInt) (h₆ : n.toInt ≤ 6) : code ≠ n := by
    rintro rfl
    omega
  rw [readPayload, if_neg (hne 1 (by decide) (by decide)), if_neg (hne 3 (by decide) (by decide)),
    if_neg (hne 5 (by decide) (by decide)), if_neg (hne 4 (by decide) (by decide)),
    if_neg (hne 2 (by decide) (by decide)), if_neg (hne 6 (by decide) (by decide)),
    if_neg (hne 0 (by decide) (by decide))]
  rfl

mutual

theorem readStored_writeStored (s : Stored) (h : s.Fits) (rest : Bytes) {fuel : Nat}
    (hfuel : (writeStored s rest).length ≤ fuel) :
    readStored fuel (writeStored s rest) = .ok (s, rest) := by
  obtain ⟨fuel, rfl⟩ : ∃ m, fuel = m + 1 := by
    have := length_lt_writeStored s rest
    exact ⟨fuel - 1, by omega⟩
  cases s with
  | nil =>
    rw [writeStored, readStored_head]
    rfl
  | unlisted code =>
    rw [writeStored, readStored_head]
    exact readPayload_unlisted _ h rest
  | bool b =>
    rw [writeStored, readStored_head]
    cases b <;> rfl
  | integer n =>
    rw [writeStored, readStored_head]
    change (readInt (writeInt n rest)).map _ = _
    rw [readInt_writeInt]
    rfl
  | string t | keyword t | function t =>
    rw [writeStored, readStored_head]
    change (readString (writeString t rest)).map _ = _
    rw [readString_writeString h]
    rfl
  | vector elems =>
    rw [Stored.Fits] at h
    have hlen := length_le_writeAll elems rest
    have hhead := length_lt_writeArrayHead elems.length (writeAll elems rest)
    have hint := length_lt_writeInt 6 (writeArrayHead elems.length (writeAll elems rest))
    have hlead := length_lt_writeArrayHead 2
      (writeInt 6 (writeArrayHead elems.length (writeAll elems rest)))
    rw [writeStored] at hfuel ⊢
    change (writeArrayHead 2 (writeInt 6 _)).length ≤ _ at hfuel
    rw [readStored_head]
    change readPayload (readStored fuel) 6 _ = _
    rw [readPayload_vector _ h.1, readCounted, if_neg (by omega),
      readMany_writeAll elems h.2 rest (by omega)]
    rfl

theorem readMany_writeAll (ss : List Stored) (h : Stored.FitsAll ss) (rest : Bytes) {fuel : Nat}
    (hfuel : (writeAll ss rest).length ≤ fuel) :
    readMany (readStored fuel) ss.length (writeAll ss rest) = .ok (ss, rest) := by
  cases ss with
  | nil => rfl
  | cons s ss =>
    rw [Stored.FitsAll] at h
    have hhead := length_lt_writeStored s (writeAll ss rest)
    rw [writeAll] at hfuel ⊢
    rw [List.length_cons, readMany, readStored_writeStored s h.1 _ hfuel]
    simp only
    rw [readMany_writeAll ss h.2 rest (by omega)]
    rfl

end

/-! ### Bindings -/

theorem length_le_writePairs (es : List Entry) : es.length ≤ (writePairs es []).length := by
  induction es with
  | nil => exact Nat.le_refl _
  | cons e es ih =>
    have hname := length_lt_writeString e.name (writeStored e.value (writePairs es []))
    have hvalue := length_lt_writeStored e.value (writePairs es [])
    rw [writePairs, List.length_cons]
    omega

theorem readMany_writePairs (es : List Entry) (h : ∀ e ∈ es, e.Fits) {fuel : Nat}
    (hfuel : (writePairs es []).length ≤ fuel) :
    readMany (readEntry fuel) es.length (writePairs es []) = .ok (es, []) := by
  induction es with
  | nil => rfl
  | cons e es ih =>
    have he := h e List.mem_cons_self
    have hname := length_lt_writeString e.name (writeStored e.value (writePairs es []))
    have hvalue := length_lt_writeStored e.value (writePairs es [])
    rw [writePairs] at hfuel ⊢
    have hentry : readEntry fuel (writeString e.name (writeStored e.value (writePairs es []))) =
        .ok (e, writePairs es []) := by
      rw [readEntry, readString_writeString he.name_lt]
      simp only
      rw [readStored_writeStored e.value he.value_fits _ (by omega)]
      rfl
    rw [List.length_cons, readMany, hentry]
    simp only
    rw [ih (fun e' he' => h e' (List.mem_cons_of_mem e he')) (by omega)]
    rfl

theorem readEntries_writeEntries {es : List Entry} (hlen : es.length < 4294967296)
    (h : ∀ e ∈ es, e.Fits) : readEntries (writeEntries es) = .ok es := by
  have hcount := length_le_writePairs es
  have hhead : (writePairs es []).length ≤ (writeEntries es).length := by
    simp only [writeEntries, writeMapHead]
    split_ifs <;> simp only [List.length_cons, Word.length_write] <;> omega
  rw [readEntries]
  rw [writeEntries] at hhead ⊢
  rw [readMapHead_writeMapHead hlen]
  simp only
  rw [readCounted, if_neg (by omega), readMany_writePairs es h (by omega)]
  rfl

end Pack

end SpanLisp
