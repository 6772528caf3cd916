import SpanLisp.Json.Reader
import SpanLisp.Json.Writer
import SpanLisp.Proofs.ByteRuns

/-!
# Strings of JSON are read back

A character of a text is spelled by the bytes of its UTF-8 form (`Utf8.bytes_eq_encode`), unless it
is a byte outside UTF-8.  `Json.Spells` says what a piece of a JSON string stands for, whatever
follows it.  Each character is written as a piece that spells its bytes (`spells_escapeRune`), so a
string in UTF-8 is read back (`readString_quote`).  Control characters only occur as escapes
(`isClean_quote`).
-/

namespace SpanLisp

namespace Utf8

theorem encode_ofNat {n : Nat} (h : n < 0xd800 ∨ 0xe000 ≤ n ∧ n < 0x110000) :
    encode (Char.ofNat n) =
      if n ≤ 127 then [UInt8.ofNat n]
      else if n ≤ 2047 then [UInt8.ofNat (n / 64 % 32 + 192), UInt8.ofNat (n % 64 + 128)]
      else if n ≤ 65535 then
        [UInt8.ofNat (n / 4096 % 16 + 224), UInt8.ofNat (n / 64 % 64 + 128),
          UInt8.ofNat (n % 64 + 128)]
      else
        [UInt8.ofNat (n / 262144 % 8 + 240), UInt8.ofNat (n / 4096 % 64 + 128),
          UInt8.ofNat (n / 64 % 64 + 128), UInt8.ofNat (n % 64 + 128)] := by
  have hn : (Char.ofNat n).val.toNat = n := toNat_ofNat_char h
  simp only [encode, String.utf8EncodeChar, hn]

theorem ofNat_eq {n : Nat} {b : UInt8} (h : n = b.toNat) : UInt8.ofNat n = b := by
  rw [h, UInt8.ofNat_toNat]

/-- A character is spelled by its UTF-8 bytes, unless it stands for a byte outside UTF-8. -/
theorem encode_decode (b : UInt8) (rest : Bytes) :
    decode b rest = (replacement, 0) ∨
      encode (decode b rest).1 = b :: rest.take (decode b rest).2 := by
  fun_cases decode b rest with
  | case1 rest hb =>
    have hlt : b.toNat < 0x80 := UInt8.lt_iff_toNat_lt.1 hb
    right
    rw [encode_ofNat (by omega), if_pos (by omega), UInt8.ofNat_toNat]
    rfl
  | case4 hb b₁ r₁ hf h₂ =>
    have hbounds := follows_bounds (Bool.of_not_eq_false hf)
    have hlt : b.toNat < 0xe0 := UInt8.lt_iff_toNat_lt.1 h₂
    right
    simp only [tailBits]
    rw [encode_ofNat (by omega), if_neg (by omega), if_pos (by omega), ofNat_eq (b := b) (by omega),
      ofNat_eq (b := b₁) (by omega)]
    rfl
  | case7 hb b₁ hf h₂ b₂ r₂ ht h₃ =>
    have hbounds := follows_bounds (Bool.of_not_eq_false hf)
    have ht₂ := isTail_iff.1 (Bool.of_not_eq_false ht)
    have hlow : 0xe0 ≤ b.toNat := by simpa [UInt8.lt_iff_toNat_lt] using h₂
    have hlt : b.toNat < 0xf0 := UInt8.lt_iff_toNat_lt.1 h₃
    right
    simp only [tailBits]
    rw [encode_ofNat (by omega), if_neg (by omega), if_neg (by omega), if_pos (by omega),
      ofNat_eq (b := b) (by omega), ofNat_eq (b := b₁) (by omega), ofNat_eq (b := b₂) (by omega)]
    rfl
  | case10 hb b₁ hf h₂ b₂ ht h₃ b₃ r₃ ht' =>
    have hbounds := follows_bounds (Bool.of_not_eq_false hf)
    have ht₂ := isTail_iff.1 (Bool.of_not_eq_false ht)
    have ht₃ := isTail_iff.1 (Bool.of_not_eq_false ht')
    have hlow : 0xf0 ≤ b.toNat := by simpa [UInt8.lt_iff_toNat_lt] using h₃
    right
    simp only [tailBits]
    rw [encode_ofNat (by omega), if_neg (by omega), if_neg (by omega), if_neg (by omega),
      ofNat_eq (b := b) (by omega), ofNat_eq (b := b₁) (by omega), ofNat_eq (b := b₂) (by omega),
      ofNat_eq (b := b₃) (by omega)]
    rfl
  | case2 | case3 | case5 | case6 | case8 | case9 => exact .inl rfl

/-- What holds of the first character of every text holds of all characters of a text. -/
theorem forall_mem_runes {p : Rune → Prop}
    (h : ∀ b rest, p ⟨(decode b rest).1, b :: rest.take (decode b rest).2⟩) (t : Bytes) :
    ∀ r ∈ runes t, p r := by
  unfold runes
  fun_induction runesFrom 0 t with
  | case1 => simp
  | case2 n b bs ih => exact ih
  | case3 b bs d ih => exact List.forall_mem_cons.2 ⟨h b bs, ih⟩

/-- A character of a text is spelled by its UTF-8 bytes, unless it is a byte outside UTF-8. -/
theorem bytes_eq_encode {t : Bytes} {r : Rune} (h : r ∈ runes t) (hs : isStray r = false) :
    r.bytes = encode r.char := by
  revert r
  apply forall_mem_runes
  intro b rest hs
  obtain hd | hd := encode_decode b rest
  · rw [hd] at hs
    cases hs
  · exact hd.symm

/-- A character below U+0080 is one byte, and all bytes of another are beyond ASCII. -/
theorem ascii_or_high {t : Bytes} {r : Rune} (h : r ∈ runes t) :
    (∃ b : UInt8, b < 0x80 ∧ r = ⟨Char.ofNat b.toNat, [b]⟩) ∨
      0x80 ≤ r.char.toNat ∧ ∀ b ∈ r.bytes, 0x80 ≤ b.toNat := by
  revert r
  apply forall_mem_runes
  intro b rest
  by_cases hb : b < 0x80
  · rw [decode_of_lt hb]
    exact .inl ⟨b, hb, rfl⟩
  · obtain ⟨hchar, htail⟩ := decode_high hb rest
    have hfirst : 0x80 ≤ b.toNat := Nat.not_lt.1 fun hlt => hb (UInt8.lt_iff_toNat_lt.2 hlt)
    exact .inr ⟨hchar, List.forall_mem_cons.2 ⟨hfirst, htail⟩⟩

end Utf8

namespace Json

/-! ### Strings -/

/-- Inside a string, the text `t` spells `s` whatever follows it. -/
def Spells (t s : Bytes) : Prop :=
  ∀ rest, readString (t ++ rest) = (readString rest).map fun r => (s ++ r.1, r.2)

theorem Spells.nil : Spells [] [] := by
  intro rest
  simp

theorem Spells.append {t t' s s' : Bytes} (h : Spells t s) (h' : Spells t' s') :
    Spells (t ++ t') (s ++ s') := by
  intro rest
  rw [List.append_assoc, h, h', Option.map_map]
  simp only [Function.comp_def, List.append_assoc]

theorem spells_byte {b : UInt8} (hquote : b ≠ 0x22) (hslash : b ≠ 0x5c) : Spells [b] [b] := by
  intro rest
  rw [List.singleton_append, readString]
  · rfl
  all_goals simp_all

theorem spells_bytes {t : Bytes} (h : ∀ b ∈ t, 0x80 ≤ b.toNat) : Spells t t := by
  induction t with
  | nil => exact .nil
  | cons b t ih =>
    obtain ⟨hb, ht⟩ := List.forall_mem_cons.1 h
    apply Spells.append (t := [b]) (s := [b]) (spells_byte ?_ ?_) (ih ht)
    · rintro rfl
      simp at hb
    · rintro rfl
      simp at hb

theorem spells_escape {e b : UInt8} (he : e ≠ 0x75) (h : escapeByte? e = some b) :
    Spells [0x5c, e] [b] := by
  intro rest
  rw [List.cons_append, List.singleton_append, readString]
  · rw [h]
    rfl
  all_goals simp_all

theorem spells_letter {e b : UInt8} {n : Nat} (hn : b.toNat = n) (he : e ≠ 0x75)
    (h : escapeByte? e = some (UInt8.ofNat n)) : Spells [0x5c, e] [b] := by
  rw [← Utf8.ofNat_eq hn.symm]
  exact spells_escape he h

theorem spells_unit {a b c d : UInt8} {n : Nat} (hn : codeUnit a b c d = n)
    (hsurrogate : isSurrogate n = false) :
    Spells [0x5c, 0x75, a, b, c, d] (Utf8.encode (Char.ofNat n)) := by
  intro rest
  conv => lhs; unfold readString
  simp only [List.cons_append, List.nil_append, hn, hsurrogate]
  rfl

theorem codeUnit_digits : ∀ n < 0x20,
    codeUnit 0x30 0x30 (Hex.digit (n / 16)) (Hex.digit (n % 16)) = n := by
  decide

theorem spells_control {b : UInt8} (h : b.toNat < 0x20) :
    Spells (escapeControl b.toNat) [b] := by
  unfold escapeControl
  split_ifs with hfeed hreturn htab hback hform
  · exact spells_letter (e := 0x6e) hfeed (by decide) rfl
  · exact spells_letter (e := 0x72) hreturn (by decide) rfl
  · exact spells_letter (e := 0x74) htab (by decide) rfl
  · exact spells_letter (e := 0x62) hback (by decide) rfl
  · exact spells_letter (e := 0x66) hform (by decide) rfl
  · have hsurrogate : isSurrogate b.toNat = false := by
      simp [isSurrogate]
      omega
    have hspells := spells_unit (codeUnit_digits b.toNat h) hsurrogate
    rw [Utf8.encode_ofNat (by omega), if_pos (by omega), UInt8.ofNat_toNat] at hspells
    rw [UInt8.ofNat_toNat]
    exact hspells

theorem spells_separator {r : Rune} {t : Bytes} (hr : r ∈ Utf8.runes t)
    (hs : Utf8.isStray r = false) {a b c d : UInt8} (hunit : codeUnit a b c d = r.char.toNat)
    (hsurrogate : isSurrogate r.char.toNat = false) : Spells [0x5c, 0x75, a, b, c, d] r.bytes := by
  have hspells := spells_unit hunit hsurrogate
  rwa [Char.ofNat_toNat, ← Utf8.bytes_eq_encode hr hs] at hspells

/-- Every character of a text is read back as its bytes. -/
theorem spells_escapeRune {t : Bytes} {r : Rune} (hr : r ∈ Utf8.runes t)
    (hs : Utf8.isStray r = false) : Spells (escapeRune r) r.bytes := by
  obtain ⟨b, hb, rfl⟩ | ⟨hchar, hbytes⟩ := Utf8.ascii_or_high hr
  · have hlt : b.toNat < 0x80 := UInt8.lt_iff_toNat_lt.1 hb
    have hchar : (Char.ofNat b.toNat).toNat = b.toNat := Utf8.toNat_ofNat_char (by omega)
    simp only [escapeRune, hs, hchar, Bool.false_eq_true, if_false]
    split_ifs with hquote hslash hcontrol
    · exact spells_letter (e := 0x22) hquote (by decide) rfl
    · exact spells_letter (e := 0x5c) hslash (by decide) rfl
    · exact spells_control hcontrol
    · omega
    · omega
    · exact spells_byte (fun h => hquote (by rw [h]; rfl)) (fun h => hslash (by rw [h]; rfl))
  · simp only [escapeRune, hs, Bool.false_eq_true, if_false]
    rw [if_neg (by omega), if_neg (by omega), if_neg (by omega)]
    split_ifs with hline hparagraph
    · exact spells_separator hr hs (by rw [hline]; rfl) (by rw [hline]; rfl)
    · exact spells_separator hr hs (by rw [hparagraph]; rfl) (by rw [hparagraph]; rfl)
    · exact spells_bytes hbytes

theorem spells_flatMap {rs : List Rune} (h : ∀ r ∈ rs, Spells (escapeRune r) r.bytes) :
    Spells (rs.flatMap escapeRune) (rs.flatMap Rune.bytes) := by
  induction rs with
  | nil => exact .nil
  | cons r rs ih =>
    obtain ⟨hr, hrs⟩ := List.forall_mem_cons.1 h
    exact hr.append (ih hrs)

/-- A string is read back after its opening quote. -/
theorem readString_quote {s : Bytes} (h : Utf8.isUtf8 s = true) (rest : Bytes) :
    readString ((Utf8.runes s).flatMap escapeRune ++ 0x22 :: rest) = some (s, rest) := by
  have hspells : Spells ((Utf8.runes s).flatMap escapeRune) s := by
    have hall : ∀ r ∈ Utf8.runes s, Spells (escapeRune r) r.bytes := by
      intro r hr
      apply spells_escapeRune hr
      simpa using List.all_eq_true.1 h r hr
    have hbytes := spells_flatMap hall
    rwa [Utf8.flatMap_bytes_runes] at hbytes
  rw [hspells, readString]
  simp

/-! ### Control characters -/

/-- Is the text without control characters? -/
def isClean (t : Bytes) : Bool := t.all (0x20 ≤ ·)

@[simp] theorem isClean_cons (b : UInt8) (t : Bytes) :
    isClean (b :: t) = (decide (0x20 ≤ b) && isClean t) := rfl

@[simp] theorem isClean_append (t u : Bytes) : isClean (t ++ u) = (isClean t && isClean u) :=
  List.all_append

theorem isClean_of_forall {t : Bytes} (h : ∀ b ∈ t, 0x20 ≤ b.toNat) : isClean t = true := by
  apply List.all_eq_true.2
  intro b hb
  exact decide_eq_true (UInt8.le_iff_toNat_le.2 (h b hb))

theorem isClean_escapeControl : ∀ n < 0x20, isClean (escapeControl n) = true := by
  decide

theorem isClean_escapeRune {t : Bytes} {r : Rune} (hr : r ∈ Utf8.runes t) :
    isClean (escapeRune r) = true := by
  have hbytes (h : ¬ r.char.toNat < 0x20) : isClean r.bytes = true := by
    apply isClean_of_forall
    obtain ⟨b, hb, rfl⟩ | ⟨-, hbytes⟩ := Utf8.ascii_or_high hr
    · have hlt : b.toNat < 0x80 := UInt8.lt_iff_toNat_lt.1 hb
      rw [Utf8.toNat_ofNat_char (by omega)] at h
      simpa using h
    · intro b hb
      have := hbytes b hb
      omega
  simp only [escapeRune]
  split_ifs with hquote hslash hcontrol
  · rfl
  · rfl
  · exact isClean_escapeControl _ hcontrol
  · rfl
  · rfl
  · rfl
  · exact hbytes hcontrol

theorem isClean_quote (s : Bytes) : isClean (quote s) = true := by
  have hall : isClean ((Utf8.runes s).flatMap escapeRune) = true := by
    rw [isClean, List.all_flatMap]
    exact List.all_eq_true.2 fun r hr => isClean_escapeRune hr
  rw [quote, isClean_append, isClean_cons, hall]
  rfl

end Json

end SpanLisp
