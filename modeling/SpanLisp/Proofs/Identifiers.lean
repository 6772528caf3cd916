import SpanLisp.Snapshot.Uuid

/-! An identifier has sixteen bytes, and its text is read back as the same bytes. -/

namespace SpanLisp

namespace Hex

/-- A closed check of the 256 bytes. -/
theorem byte?_digits (b : UInt8) :
    byte? (digit (b.toNat / 16)) (digit (b.toNat % 16)) = some b := by
  have hall : ∀ n < 256, byte? (digit (n / 16)) (digit (n % 16)) = some (UInt8.ofNat n) := by
    decide +kernel
  rw [hall b.toNat b.toNat_lt, UInt8.ofNat_toNat]

theorem toBytes?_ofBytes (t : Bytes) : toBytes? (ofBytes t) = some t := by
  induction t with
  | nil => rfl
  | cons b t ih =>
    change toBytes? (digit (b.toNat / 16) :: digit (b.toNat % 16) :: ofBytes t) = _
    simp only [toBytes?, byte?_digits, ih, Option.map_some]

theorem length_ofBytes (t : Bytes) : (ofBytes t).length = 2 * t.length := by
  induction t with
  | nil => rfl
  | cons b t ih =>
    rw [ofBytes, List.flatMap_cons, List.length_append, ← ofBytes, ih, List.length_cons]
    simp only [ofByte, List.length_cons, List.length_nil]
    omega

theorem length_of_toBytes? {t id : Bytes} (h : toBytes? t = some id) :
    t.length = 2 * id.length := by
  fun_induction toBytes? t generalizing id with
  | case1 =>
    cases h
    rfl
  | case2 hi lo rest b hb ih =>
    obtain ⟨u, hu, rfl⟩ := Option.map_eq_some_iff.1 h
    have := ih hu
    simp only [List.length_cons]
    omega
  | case3 => cases h
  | case4 => cases h

end Hex

namespace Uuid

theorem length_undash {t u : Bytes} (h : undash t = some u) (hlen : 36 ≤ t.length) :
    u.length = 32 := by
  simp only [undash] at h
  split at h
  · cases h
    simp only [List.length_append, List.length_take, List.length_drop]
    omega
  · cases h

theorem length_grouped {t id : Bytes} (h : grouped t = .ok id) (hlen : 36 ≤ t.length) :
    id.length = 16 := by
  unfold grouped at h
  split at h
  · rename_i hbytes
    cases h
    obtain ⟨u, hu, hid⟩ := Option.bind_eq_some_iff.1 hbytes
    have hdigits := Hex.length_of_toBytes? hid
    have := length_undash hu hlen
    omega
  · cases h

theorem length_of_parse {t id : Bytes} (h : parse t = .ok id) : id.length = 16 := by
  unfold parse at h
  split at h
  · exact length_grouped h (by omega)
  · split at h
    · split at h
      · exact length_grouped h (by simp only [List.length_drop]; omega)
      · cases h
    · split at h
      · exact length_grouped h (by simp only [List.length_drop]; omega)
      · split at h
        · split at h
          · rename_i hbytes
            cases h
            have := Hex.length_of_toBytes? hbytes
            omega
          · cases h
        · cases h

theorem undash_groups {a b c d e : Bytes} (ha : a.length = 8) (hb : b.length = 4)
    (hc : c.length = 4) (hd : d.length = 4) (he : e.length = 12) :
    undash (a ++ [0x2d] ++ b ++ [0x2d] ++ c ++ [0x2d] ++ d ++ [0x2d] ++ e) =
      some (a ++ b ++ c ++ d ++ e) := by
  simp only [undash, List.append_assoc, List.cons_append, List.nil_append]
  simp [ha, hb, hc, hd, he, List.drop_append, List.take_of_length_le, List.drop_of_length_le]

theorem groups_eq (g : Bytes) :
    g.take 8 ++ (g.drop 8).take 4 ++ (g.drop 12).take 4 ++ (g.drop 16).take 4 ++ g.drop 20 = g := by
  rw [List.append_assoc, List.append_assoc, List.append_assoc,
    ← List.drop_drop (i := 4) (j := 16), List.take_append_drop,
    ← List.drop_drop (i := 4) (j := 12), List.take_append_drop,
    ← List.drop_drop (i := 4) (j := 8), List.take_append_drop, List.take_append_drop]

theorem undash_text {id : Bytes} (h : id.length = 16) :
    undash (text id) = some (Hex.ofBytes id) := by
  have hlen : (Hex.ofBytes id).length = 32 := by
    rw [Hex.length_ofBytes]
    omega
  have hdash : utf8 "-" = [0x2d] := by decide
  simp only [text, hdash]
  rw [undash_groups, groups_eq] <;>
    simp only [List.length_take, List.length_drop, hlen] <;> decide

theorem length_text {id : Bytes} (h : id.length = 16) : (text id).length = 36 := by
  have hdash : utf8 "-" = [0x2d] := by decide
  simp only [text, hdash, List.length_append, List.length_take, List.length_drop,
    Hex.length_ofBytes, List.length_cons, List.length_nil]
  omega

theorem parse_text {id : Bytes} (h : id.length = 16) : parse (text id) = .ok id := by
  rw [parse, if_pos (length_text h), grouped, undash_text h, Option.bind_some,
    Hex.toBytes?_ofBytes]

end Uuid

end SpanLisp
