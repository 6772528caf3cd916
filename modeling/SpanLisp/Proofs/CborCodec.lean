import SpanLisp.Proofs.PackCodec

/-! What the CBOR reader makes of the writer's bytes.  The reader has limits that the writer does
not check: at most 32 containers inside one another, at most 131072 elements, UTF-8 in texts. -/

namespace SpanLisp

/-! ### The limits of the reader -/

namespace Stored

mutual

/-- Has the value at most `levels` vectors inside one another, none of them too long?  Empty vectors
count no level. -/
def isShallow (levels : Nat) : Stored → Bool
  | .vector elems =>
    elems.isEmpty ||
      (decide (0 < levels) && decide (elems.length ≤ Cbor.maxElements) &&
        areShallow (levels - 1) elems)
  | _ => true

/-- Are all of the values so? -/
def areShallow (levels : Nat) : List Stored → Bool
  | [] => true
  | s :: ss => s.isShallow levels && areShallow levels ss

end

mutual

/-- Are all texts in the value UTF-8? -/
def isUtf8 : Stored → Bool
  | .string t | .keyword t | .function t => Utf8.isUtf8 t
  | .vector elems => areUtf8 elems
  | .nil | .bool _ | .integer _ | .unlisted _ => true

/-- Are all of the values so? -/
def areUtf8 : List Stored → Bool
  | [] => true
  | s :: ss => s.isUtf8 && areUtf8 ss

end

end Stored

/-- The number of vectors that may stand inside one another in the value of a binding: each takes
two of the 32 levels, and three are gone before the first. -/
def Cbor.maxLevels : Nat := 14

/-- Is the binding within the limits of the reader? -/
def Entry.isPortable (e : Entry) : Bool :=
  Utf8.isUtf8 e.name && e.value.isShallow Cbor.maxLevels && e.value.isUtf8

namespace Cbor

/-! ### Heads -/

theorem length_lt_writeHead (major n : Nat) (rest : Bytes) :
    rest.length < (writeHead major n rest).length := by
  simp only [writeHead]
  split_ifs <;> simp only [List.length_cons, Word.length_write] <;> omega

/-- The first byte carries the major type in its three high bits. -/
theorem lead_toNat (major info : Nat) (hmajor : major < 8) (hinfo : info < 32) :
    (UInt8.ofNat (major * 32 + info)).toNat = major * 32 + info :=
  UInt8.toNat_ofNat_of_lt' (by change _ < 256; omega)

theorem readHead_word {major info k n : Nat} (hmajor : major < 7) (hn : n < Word.count k)
    (hinfo : info = 24 ∧ k = 1 ∨ info = 25 ∧ k = 2 ∨ info = 26 ∧ k = 4 ∨ info = 27 ∧ k = 8)
    (rest : Bytes) :
    readHead (UInt8.ofNat (major * 32 + info) :: Word.write k n rest) =
      .ok (⟨major, info, n⟩, rest) := by
  have hb := lead_toNat major info (by omega) (by omega)
  have hdiv : (major * 32 + info) / 32 = major := by omega
  have hmod : (major * 32 + info) % 32 = info := by omega
  have hlen : ¬ (Word.write k n rest).length < k := by
    rw [Word.length_write]
    omega
  have hseven : major ≠ 7 := by omega
  simp only [readHead, hb, hdiv, hmod]
  obtain ⟨rfl, rfl⟩ | ⟨rfl, rfl⟩ | ⟨rfl, rfl⟩ | ⟨rfl, rfl⟩ := hinfo <;>
    simp only [hlen, Word.take_write, Word.drop_write, Word.value_write hn, hseven, false_and,
      ↓reduceIte, Nat.reduceLT, Nat.reduceEqDiff]

theorem readHead_writeHead (major n : Nat) (hmajor : major < 7) (hn : n < 18446744073709551616)
    (rest : Bytes) :
    ∃ info, info ≠ 31 ∧ readHead (writeHead major n rest) = .ok (⟨major, info, n⟩, rest) := by
  simp only [writeHead]
  split_ifs with h₁ h₂ h₃ h₄
  · refine ⟨n, by omega, ?_⟩
    have hb := lead_toNat major n (by omega) (by omega)
    have hdiv : (major * 32 + n) / 32 = major := by omega
    have hmod : (major * 32 + n) % 32 = n := by omega
    simp only [readHead, hb, hdiv, hmod, if_pos h₁]
  · exact ⟨24, by decide, readHead_word hmajor h₂ (by decide) rest⟩
  · exact ⟨25, by decide, readHead_word hmajor h₃ (by decide) rest⟩
  · exact ⟨26, by decide, readHead_word hmajor h₄ (by decide) rest⟩
  · exact ⟨27, by decide, readHead_word hmajor hn (by decide) rest⟩

/-! ### Items -/

/-- The item of an integer. -/
def intItem : Int → Item
  | .ofNat n => .unsigned n
  | .negSucc n => .negative n

variable {fuel depth : Nat}

theorem readItem_writeInt (hfuel : 0 < fuel) (n : Int64) (rest : Bytes) :
    readItem fuel depth false (writeInt n.toInt rest) = .ok (intItem n.toInt, rest) := by
  obtain ⟨fuel, rfl⟩ : ∃ m, fuel = m + 1 := ⟨fuel - 1, by omega⟩
  have hlow := n.le_toInt
  have hhigh := n.toInt_lt
  cases hi : n.toInt with
  | ofNat k =>
    rw [hi, Int.ofNat_eq_natCast] at hhigh
    obtain ⟨info, -, hhead⟩ := readHead_writeHead 0 k (by decide) (by omega) rest
    rw [readItem, writeInt, hhead]
    rfl
  | negSucc k =>
    obtain ⟨info, -, hhead⟩ := readHead_writeHead 1 k (by decide) (by omega) rest
    rw [readItem, writeInt, hhead]
    rfl

theorem readItem_writeText (hfuel : 0 < fuel) {s : Bytes} (h : s.length < 4294967296)
    (rest : Bytes) : readItem fuel depth false (writeText s rest) = .ok (.text [s], rest) := by
  obtain ⟨fuel, rfl⟩ : ∃ m, fuel = m + 1 := ⟨fuel - 1, by omega⟩
  obtain ⟨info, hinfo, hhead⟩ :=
    readHead_writeHead 3 s.length (by decide) (by omega) (s ++ rest)
  have htake : takeBytes s.length (s ++ rest) = .ok (s, rest) := by
    rw [takeBytes, if_neg (by rw [Word.half]; omega), if_neg (by rw [List.length_append]; omega),
      List.take_left, List.drop_left]
  rw [readItem, writeText, hhead]
  simp only [readPayload, if_neg hinfo, htake]
  rfl

theorem readItem_array (hdepth : depth < maxDepth) {n : Nat} (hn : n ≤ maxElements) (rest : Bytes) :
    readItem (fuel + 1) depth false (writeHead 4 n rest) =
      (readMany (readItem fuel (depth + 1) false) n rest).map fun r => (.array r.1, r.2) := by
  obtain ⟨info, hinfo, hhead⟩ :=
    readHead_writeHead 4 n (by decide) (Nat.lt_of_le_of_lt hn (by decide)) rest
  rw [readItem, hhead]
  simp only [readElems, if_neg hinfo, if_neg (Nat.not_lt.2 hn), if_neg (Nat.not_lt.2 hdepth),
    Nat.reduceEqDiff, ↓reduceIte, Nat.one_mul]

theorem readItem_map (hdepth : depth < maxDepth) {n : Nat} (hn : n ≤ maxElements) (rest : Bytes) :
    readItem (fuel + 1) depth false (writeHead 5 n rest) =
      (readMany (readItem fuel (depth + 1) false) (2 * n) rest).map fun r => (.map r.1, r.2) := by
  obtain ⟨info, hinfo, hhead⟩ :=
    readHead_writeHead 5 n (by decide) (Nat.lt_of_le_of_lt hn (by decide)) rest
  rw [readItem, hhead]
  simp only [readElems, if_neg hinfo, if_neg (Nat.not_lt.2 hn), if_neg (Nat.not_lt.2 hdepth),
    ↓reduceIte]

theorem readItem_tooMany {n : Nat} (hn : maxElements < n) (hlt : n < 4294967296) (rest : Bytes) :
    readItem (fuel + 1) depth false (writeHead 4 n rest) = .error .invalid := by
  obtain ⟨info, hinfo, hhead⟩ := readHead_writeHead 4 n (by decide) (by omega) rest
  rw [readItem, hhead]
  simp only [readElems, if_neg hinfo, if_pos hn]
  exact ite_self _

theorem readItem_tooDeep (hdepth : maxDepth ≤ depth) {n : Nat} (hn : n ≤ maxElements)
    (rest : Bytes) :
    readItem (fuel + 1) depth false (writeHead 5 n rest) = .error .invalid := by
  obtain ⟨info, hinfo, hhead⟩ :=
    readHead_writeHead 5 n (by decide) (Nat.lt_of_le_of_lt hn (by decide)) rest
  rw [readItem, hhead]
  simp only [if_pos (Nat.lt_succ_of_le hdepth)]

/-! ### Values -/

theorem length_lt_writeText (s rest : Bytes) : rest.length < (writeText s rest).length := by
  have := length_lt_writeHead 3 s.length (s ++ rest)
  rw [List.length_append] at this
  rw [writeText]
  omega

theorem length_lt_writeInt (n : Int) (rest : Bytes) : rest.length < (writeInt n rest).length := by
  cases n <;> exact length_lt_writeHead _ _ rest

theorem length_lt_writeKindField (code : Int64) (rest : Bytes) :
    rest.length < (writeKindField code rest).length := by
  have := length_lt_writeInt code.toInt rest
  simp only [writeKindField, writeKey, List.length_cons]
  omega

theorem length_le_writeTextField (letter : UInt8) (s rest : Bytes) :
    rest.length ≤ (writeTextField letter s rest).length := by
  have := length_lt_writeText s rest
  rw [writeTextField]
  split_ifs
  · exact Nat.le_refl _
  · simp only [writeKey, List.length_cons]
    omega

/-- The keys and values of a map with one field more. -/
theorem readMany_field (hfuel : 0 < fuel) (letter : UInt8) {t rest : Bytes} {x : Item} (n : Nat)
    (h : readItem fuel depth false t = .ok (x, rest)) :
    readMany (readItem fuel depth false) (2 * (n + 1)) (writeKey letter t) =
      (readMany (readItem fuel depth false) (2 * n) rest).map fun r =>
        (.text [[letter]] :: x :: r.1, r.2) := by
  have hlen : [letter].length < 4294967296 := (by decide : 1 < 4294967296)
  have hkey : readItem fuel depth false (writeKey letter t) = .ok (.text [[letter]], t) :=
    readItem_writeText hfuel hlen t
  rw [show 2 * (n + 1) = 2 * n + 1 + 1 by omega, readMany, hkey]
  simp only [readMany, h]
  cases readMany (readItem fuel depth false) (2 * n) rest <;> rfl

/-- The field with the number of a kind, as items. -/
def kindItems (code : Int64) : List Item := [.text [[0x6b]], intItem code.toInt]

mutual

/-- The item that is written for a value: empty fields are left out. -/
def itemOf (s : Stored) : Item :=
  .map <| match s with
    | .nil | .unlisted _ => kindItems s.kindCode
    | .bool b => (if b then [.text [[0x62]], .simple 21] else []) ++ kindItems s.kindCode
    | .integer n =>
      (if n = 0 then [] else [.text [[0x69]], intItem n.toInt]) ++ kindItems s.kindCode
    | .string t | .keyword t | .function t =>
      kindItems s.kindCode ++ if t.isEmpty then [] else [.text [[0x73]], .text [t]]
    | .vector elems =>
      kindItems s.kindCode ++
        if elems.isEmpty then [] else [.text [[0x76]], .array (itemsOf elems)]

/-- The items that are written for several values. -/
def itemsOf : List Stored → List Item
  | [] => []
  | s :: ss => itemOf s :: itemsOf ss

end

theorem readMany_kind (hfuel : 0 < fuel) (code : Int64) (n : Nat) (rest : Bytes) :
    readMany (readItem fuel depth false) (2 * (n + 1)) (writeKindField code rest) =
      (readMany (readItem fuel depth false) (2 * n) rest).map fun r =>
        (kindItems code ++ r.1, r.2) :=
  readMany_field hfuel 0x6b n (readItem_writeInt hfuel code rest)

theorem readMany_kindOnly (hfuel : 0 < fuel) (code : Int64) (rest : Bytes) :
    readMany (readItem fuel depth false) (2 * 1) (writeKindField code rest) =
      .ok (kindItems code, rest) := readMany_kind hfuel code 0 rest

theorem readItem_plain (hfuel : 0 < fuel) (hdepth : depth < maxDepth) (code : Int64)
    (rest : Bytes) :
    readItem (fuel + 1) depth false (writeHead 5 1 (writeKindField code rest)) =
      .ok (.map (kindItems code), rest) := by
  rw [readItem_map hdepth (by decide), readMany_kindOnly hfuel]
  rfl

/-- A field whose key comes before that of the kind. -/
theorem readItem_leading (hfuel : 0 < fuel) (hdepth : depth < maxDepth) (letter : UInt8)
    (code : Int64) {t rest : Bytes} {x : Item}
    (h : readItem fuel (depth + 1) false t = .ok (x, writeKindField code rest)) :
    readItem (fuel + 1) depth false (writeHead 5 2 (writeKey letter t)) =
      .ok (.map ([.text [[letter]], x] ++ kindItems code), rest) := by
  rw [readItem_map hdepth (by decide), readMany_field hfuel letter 1 h, readMany_kindOnly hfuel]
  rfl

/-- A field with a text, whose key comes after that of the kind. -/
theorem readItem_textual (hfuel : 0 < fuel) (hdepth : depth < maxDepth) (code : Int64) {t : Bytes}
    (ht : t.length < 4294967296) (rest : Bytes) :
    readItem (fuel + 1) depth false
        (writeHead 5 (if t.isEmpty then 1 else 2)
          (writeKindField code (writeTextField 0x73 t rest))) =
      .ok (.map (kindItems code ++ if t.isEmpty then [] else [.text [[0x73]], .text [t]]),
        rest) := by
  rw [writeTextField]
  split_ifs with hempty
  · rw [readItem_plain hfuel hdepth, List.append_nil]
  · rw [readItem_map hdepth (by decide), readMany_kind hfuel code 1,
      readMany_field hfuel 0x73 0 (readItem_writeText hfuel ht rest)]
    rfl

mutual

theorem length_lt_writeStored (s : Stored) (rest : Bytes) :
    rest.length + 1 < (writeStored s rest).length := by
  rw [writeStored.eq_def]
  refine Nat.lt_of_le_of_lt ?_ (length_lt_writeHead _ _ _)
  have hkind := length_lt_writeKindField s.kindCode
  have hplain := hkind rest
  cases s with
  | nil | unlisted code => exact hplain
  | bool b =>
    simp only
    split_ifs
    · simp only [writeKey, List.length_cons]
      omega
    · exact hplain
  | integer n =>
    have hint := length_lt_writeInt n.toInt (writeKindField (Stored.integer n).kindCode rest)
    simp only
    split_ifs
    · exact hplain
    · simp only [writeKey, List.length_cons]
      omega
  | string t | keyword t | function t =>
    exact Nat.lt_of_le_of_lt (length_le_writeTextField 0x73 t rest) (hkind _)
  | vector elems =>
    refine Nat.lt_of_le_of_lt ?_ (hkind _)
    have hall := length_le_writeAll elems rest
    have hhead := length_lt_writeHead 4 elems.length (writeAll elems rest)
    split_ifs
    · exact Nat.le_refl _
    · simp only [writeKey, List.length_cons]
      omega

theorem length_le_writeAll (ss : List Stored) (rest : Bytes) :
    rest.length ≤ (writeAll ss rest).length := by
  cases ss with
  | nil => exact Nat.le_refl _
  | cons s ss =>
    have hhead := length_lt_writeStored s (writeAll ss rest)
    have htail := length_le_writeAll ss rest
    rw [writeAll]
    omega

end

theorem writeStored_vector {elems : List Stored} (hne : elems ≠ []) (rest : Bytes) :
    writeStored (.vector elems) rest =
      writeHead 5 2
        (writeKindField 6 (writeKey 0x76 (writeHead 4 elems.length (writeAll elems rest)))) := by
  have hempty : elems.isEmpty = false := List.isEmpty_eq_false_iff.2 hne
  rw [writeStored, fieldCount, hempty]
  rfl

theorem length_lt_writeStored_vector {elems : List Stored} (hne : elems ≠ []) (rest : Bytes) :
    (writeAll elems rest).length + 4 < (writeStored (.vector elems) rest).length := by
  have harray := length_lt_writeHead 4 elems.length (writeAll elems rest)
  have hkind := length_lt_writeKindField 6
    (writeKey 0x76 (writeHead 4 elems.length (writeAll elems rest)))
  have hhead := length_lt_writeHead 5 2
    (writeKindField 6 (writeKey 0x76 (writeHead 4 elems.length (writeAll elems rest))))
  have hkey : (writeKey 0x76 (writeHead 4 elems.length (writeAll elems rest))).length =
      (writeHead 4 elems.length (writeAll elems rest)).length + 2 := rfl
  rw [writeStored_vector hne]
  omega

theorem fieldCount_le (s : Stored) : fieldCount s ≤ maxElements := by
  have htwo : 2 ≤ maxElements := by decide
  cases s <;> simp only [fieldCount] <;> try split_ifs
  all_goals omega

theorem readItem_noRoom (hdepth : maxDepth ≤ depth) (s : Stored) (rest : Bytes) :
    readItem (fuel + 1) depth false (writeStored s rest) = .error .invalid := by
  rw [writeStored.eq_def]
  exact readItem_tooDeep hdepth (fieldCount_le s) _

/-- A vector with elements is an array inside a map: its elements lie two levels deeper. -/
theorem readItem_vector (hdepth : depth + 1 < maxDepth) {n : Nat} (hn : n < 4294967296)
    (t : Bytes) :
    readItem (fuel + 2) depth false
        (writeHead 5 2 (writeKindField 6 (writeKey 0x76 (writeHead 4 n t)))) =
      if n ≤ maxElements then
        (readMany (readItem fuel (depth + 2) false) n t).map fun r =>
          (.map (kindItems 6 ++ [.text [[0x76]], .array r.1]), r.2)
      else .error .invalid := by
  have hpos : 0 < fuel + 1 := by omega
  have hlen : [(0x76 : UInt8)].length < 4294967296 := by decide
  have hkey : readItem (fuel + 1) (depth + 1) false (writeKey 0x76 (writeHead 4 n t)) =
      .ok (.text [[0x76]], writeHead 4 n t) := readItem_writeText hpos hlen _
  rw [readItem_map (by omega) (by decide), readMany_kind hpos 6 1]
  split_ifs with hmany
  · simp only [readMany, hkey, readItem_array hdepth hmany]
    cases readMany (readItem fuel (depth + 2) false) n t <;> rfl
  · simp only [readMany, hkey, readItem_tooMany (Nat.lt_of_not_le hmany) hn]
    rfl

mutual

theorem readItem_writeStored (s : Stored) (h : s.Fits) {levels depth : Nat}
    (hdepth : depth + 2 * levels = 30) (rest : Bytes) {fuel : Nat}
    (hfuel : (writeStored s rest).length < fuel) :
    readItem fuel depth false (writeStored s rest) =
      if s.isShallow levels then .ok (itemOf s, rest) else .error .invalid := by
  have hlen := length_lt_writeStored s rest
  have hdepth' : depth < maxDepth := by
    change depth < 32
    omega
  obtain ⟨fuel, rfl⟩ : ∃ m, fuel = m + 1 := ⟨fuel - 1, by omega⟩
  have hpos : 0 < fuel := by omega
  cases s with
  | nil | unlisted code =>
    rw [writeStored]
    exact readItem_plain hpos hdepth' _ rest
  | bool b =>
    rw [writeStored]
    cases b with
    | false => exact readItem_plain hpos hdepth' _ rest
    | true =>
      refine readItem_leading hpos hdepth' 0x62 _ ?_
      obtain ⟨fuel, rfl⟩ : ∃ m, fuel = m + 1 := ⟨fuel - 1, by omega⟩
      rfl
  | integer n =>
    simp only [writeStored, fieldCount, itemOf, Stored.isShallow, ↓reduceIte]
    split_ifs with hzero
    · exact readItem_plain hpos hdepth' _ rest
    · exact readItem_leading hpos hdepth' 0x69 _ (readItem_writeInt hpos n _)
  | string t | keyword t | function t =>
    rw [writeStored]
    exact readItem_textual hpos hdepth' _ h rest
  | vector elems =>
    rw [Stored.Fits] at h
    by_cases hne : elems = []
    · subst hne
      exact readItem_plain hpos hdepth' _ rest
    · have hshorter := length_lt_writeStored_vector hne rest
      obtain ⟨fuel, rfl⟩ : ∃ m, fuel = m + 1 := ⟨fuel - 1, by omega⟩
      have hempty : elems.isEmpty = false := List.isEmpty_eq_false_iff.2 hne
      rw [writeStored_vector hne, readItem_vector (by change _ < 32; omega) h.1, Stored.isShallow,
        itemOf, hempty]
      simp only [Bool.false_or, Bool.false_eq_true, ↓reduceIte]
      cases levels with
      | zero =>
        -- the vector itself still fits, its first element does not
        obtain rfl : depth = 30 := by omega
        obtain ⟨e, es, rfl⟩ := List.exists_cons_of_ne_nil hne
        obtain ⟨fuel, rfl⟩ : ∃ m, fuel = m + 1 := ⟨fuel - 1, by omega⟩
        rw [writeAll, List.length_cons, readMany, readItem_noRoom (by decide)]
        exact ite_self _
      | succ levels =>
        rw [readMany_writeAll elems h.2 (by omega : depth + 2 + 2 * levels = 30) rest (by omega)]
        simp only [Nat.zero_lt_succ, decide_true, Bool.true_and, Nat.add_sub_cancel,
          Bool.and_eq_true, decide_eq_true_eq]
        by_cases hmany : elems.length ≤ maxElements
        · simp only [hmany, true_and, ↓reduceIte]
          split_ifs <;> rfl
        · simp only [hmany, false_and, ↓reduceIte]

theorem readMany_writeAll (ss : List Stored) (h : Stored.FitsAll ss) {levels depth : Nat}
    (hdepth : depth + 2 * levels = 30) (rest : Bytes) {fuel : Nat}
    (hfuel : (writeAll ss rest).length < fuel) :
    readMany (readItem fuel depth false) ss.length (writeAll ss rest) =
      if Stored.areShallow levels ss then .ok (itemsOf ss, rest) else .error .invalid := by
  cases ss with
  | nil => rfl
  | cons s ss =>
    rw [Stored.FitsAll] at h
    have hhead := length_lt_writeStored s (writeAll ss rest)
    rw [writeAll] at hfuel ⊢
    rw [List.length_cons, readMany, readItem_writeStored s h.1 hdepth _ hfuel,
      Stored.areShallow, itemsOf]
    cases hs : s.isShallow levels with
    | false => rfl
    | true =>
      simp only [↓reduceIte, Bool.true_and]
      rw [readMany_writeAll ss h.2 hdepth rest (by omega)]
      split_ifs <;> rfl

end

/-! ### Values of items -/

theorem intOf?_intItem (n : Int64) : intOf? (intItem n.toInt) = some n := by
  have hlow := n.le_toInt
  have hhigh := n.toInt_lt
  cases hi : n.toInt with
  | ofNat k =>
    rw [hi, Int.ofNat_eq_natCast] at hhigh
    change (if k < Word.half then some (Int64.ofNat k) else none) = some n
    rw [if_pos (by rw [Word.half]; omega), ← Int64.ofInt_eq_ofNat, ← Int.ofNat_eq_natCast, ← hi,
      Int64.ofInt_toInt]
  | negSucc k =>
    rw [hi] at hlow
    have hval : -1 - (k : Int) = n.toInt := by omega
    change (if k < Word.half then some (Int64.ofInt (-1 - k)) else none) = some n
    rw [if_pos (by rw [Word.half]; omega), hval, Int64.ofInt_toInt]

theorem textOf?_text (s : Bytes) :
    textOf? (.text [s]) = if Utf8.isUtf8 s then some s else none := by
  change (if (Utf8.isUtf8 s && true) = true then some (s ++ []) else none) = _
  rw [Bool.and_true, List.append_nil]

theorem assemble_unlisted {code : Int64} (h : code.toInt < 0 ∨ 6 < code.toInt) (b : Bool)
    (i : Int64) (s : Bytes) (v : List Stored) : assemble code b i s v = .unlisted code := by
  have hne (n : Int64) (h₀ : 0 ≤ n.toInt) (h₆ : n.toInt ≤ 6) : code ≠ n := by
    rintro rfl
    omega
  rw [assemble, if_neg (hne 0 (by decide) (by decide)), if_neg (hne 1 (by decide) (by decide)),
    if_neg (hne 2 (by decide) (by decide)), if_neg (hne 3 (by decide) (by decide)),
    if_neg (hne 4 (by decide) (by decide)), if_neg (hne 5 (by decide) (by decide)),
    if_neg (hne 6 (by decide) (by decide))]

/-- A value is put together from its fields. -/
theorem storedOf?_of_fields {fuel : Nat} {x : Item} (fields : List (Bytes × Item)) {kind i : Int64}
    {b : Bool} (hfields : fieldsOf? x = some fields) (hkind : intOf? (field "k" fields) = some kind)
    (hb : boolOf? (field "b" fields) = some b) (hi : intOf? (field "i" fields) = some i) :
    storedOf? (fuel + 1) x =
      (textOf? (field "s" fields)).bind fun s =>
        ((elemsOf? (field "v" fields)).bind (collect (storedOf? fuel))).map
          (assemble kind b i s) := by
  rw [storedOf?, hfields]
  simp only [bind, Option.bind, hkind, hb, hi]
  cases textOf? (field "s" fields) with
  | none => rfl
  | some s =>
    cases elemsOf? (field "v" fields) with
    | none => rfl
    | some xs =>
      simp only
      cases collect (storedOf? fuel) xs <;> rfl

theorem storedOf?_plain (fuel : Nat) (code : Int64) :
    storedOf? (fuel + 1) (.map (kindItems code)) = some (assemble code false 0 [] []) :=
  storedOf?_of_fields [(utf8 "k", intItem code.toInt)] rfl (intOf?_intItem code) rfl rfl

theorem storedOf?_integer (fuel : Nat) (n : Int64) :
    storedOf? (fuel + 1) (.map ([.text [[0x69]], intItem n.toInt] ++ kindItems 3)) =
      some (.integer n) :=
  storedOf?_of_fields [(utf8 "i", intItem n.toInt), (utf8 "k", intItem 3)] rfl rfl rfl
    (intOf?_intItem n)

theorem storedOf?_textual (fuel : Nat) (code : Int64) (t : Bytes) :
    storedOf? (fuel + 1)
        (.map (kindItems code ++ if t.isEmpty then [] else [.text [[0x73]], .text [t]])) =
      if Utf8.isUtf8 t then some (assemble code false 0 t []) else none := by
  cases t with
  | nil => exact storedOf?_plain fuel code
  | cons c t =>
    refine (storedOf?_of_fields [(utf8 "k", intItem code.toInt), (utf8 "s", .text [c :: t])] rfl
      (intOf?_intItem code) rfl rfl).trans ?_
    change (textOf? (.text [c :: t])).bind _ = _
    rw [textOf?_text]
    split_ifs <;> rfl

mutual

theorem storedOf?_itemOf (s : Stored) (h : s.Fits) {levels fuel : Nat}
    (hshallow : s.isShallow levels = true) (hfuel : levels < fuel) :
    storedOf? fuel (itemOf s) = if s.isUtf8 then some s else none := by
  obtain ⟨fuel, rfl⟩ : ∃ m, fuel = m + 1 := ⟨fuel - 1, by omega⟩
  cases s with
  | nil => rfl
  | unlisted code =>
    rw [itemOf, Stored.kindCode, storedOf?_plain, assemble_unlisted h]
    rfl
  | bool b => cases b <;> rfl
  | integer n =>
    rw [itemOf]
    by_cases hzero : n = 0
    · subst hzero
      rfl
    · rw [if_neg hzero]
      exact storedOf?_integer fuel n
  | string t | keyword t | function t =>
    rw [itemOf]
    exact storedOf?_textual fuel _ t
  | vector elems =>
    rw [Stored.Fits] at h
    rw [itemOf, Stored.isUtf8]
    rw [Stored.isShallow] at hshallow
    by_cases hne : elems = []
    · subst hne
      rfl
    · have hempty : elems.isEmpty = false := List.isEmpty_eq_false_iff.2 hne
      simp only [hempty, Bool.false_or, Bool.and_eq_true, decide_eq_true_eq] at hshallow
      rw [hempty]
      refine (storedOf?_of_fields [(utf8 "k", intItem 6), (utf8 "v", .array (itemsOf elems))] rfl
        rfl rfl rfl).trans ?_
      change ((some (itemsOf elems)).bind _).map _ = _
      rw [Option.bind_some, collect_itemsOf elems h.2 hshallow.2 (by omega)]
      split_ifs <;> rfl

theorem collect_itemsOf (ss : List Stored) (h : Stored.FitsAll ss) {levels fuel : Nat}
    (hshallow : Stored.areShallow levels ss = true) (hfuel : levels < fuel) :
    collect (storedOf? fuel) (itemsOf ss) = if Stored.areUtf8 ss then some ss else none := by
  cases ss with
  | nil => rfl
  | cons s ss =>
    rw [Stored.FitsAll] at h
    rw [Stored.areShallow, Bool.and_eq_true] at hshallow
    rw [itemsOf, collect, storedOf?_itemOf s h.1 hshallow.1 hfuel, Stored.areUtf8]
    cases hs : s.isUtf8 with
    | false => rfl
    | true =>
      simp only [↓reduceIte, Bool.true_and]
      rw [collect_itemsOf ss h.2 hshallow.2 hfuel]
      split_ifs <;> rfl

end

/-! ### Bindings -/

/-- The item that is written for a binding. -/
def entryItem (e : Entry) : Item :=
  .map [.text [[0x6e]], .text [e.name], .text [[0x76]], itemOf e.value]

theorem entryOf?_entryItem {e : Entry} (h : e.Fits)
    (hshallow : e.value.isShallow maxLevels = true) :
    entryOf? (entryItem e) = if Utf8.isUtf8 e.name && e.value.isUtf8 then some e else none := by
  change (textOf? (.text [e.name])).bind (fun name =>
    (storedOf? (maxDepth + 1) (itemOf e.value)).bind fun value => some (Entry.mk name value)) = _
  rw [textOf?_text, storedOf?_itemOf e.value h.value_fits hshallow (by decide)]
  cases Utf8.isUtf8 e.name <;> cases e.value.isUtf8 <;> rfl

theorem collect_entryItem (es : List Entry) (h : ∀ e ∈ es, e.Fits)
    (hshallow : es.all (·.value.isShallow maxLevels) = true) :
    collect entryOf? (es.map entryItem) =
      if es.all (fun e => Utf8.isUtf8 e.name && e.value.isUtf8) then some es else none := by
  induction es with
  | nil => rfl
  | cons e es ih =>
    rw [List.all_cons, Bool.and_eq_true] at hshallow
    have hes := ih (fun e' he' => h e' (List.mem_cons_of_mem e he')) hshallow.2
    rw [List.map_cons, collect, entryOf?_entryItem (h e List.mem_cons_self) hshallow.1,
      List.all_cons]
    cases Utf8.isUtf8 e.name && e.value.isUtf8 with
    | false => rfl
    | true =>
      simp only [↓reduceIte, Bool.true_and]
      rw [hes]
      split_ifs <;> rfl

theorem readItem_entry {e : Entry} (h : e.Fits) (rest : Bytes) {fuel : Nat}
    (hfuel : (writeStored e.value rest).length < fuel) :
    readItem (fuel + 1) 1 false
        (writeHead 5 2 (writeKey 0x6e (writeText e.name (writeKey 0x76
          (writeStored e.value rest))))) =
      if e.value.isShallow maxLevels then .ok (entryItem e, rest) else .error .invalid := by
  have hpos : 0 < fuel := by omega
  have hletter (letter : UInt8) : [letter].length < 4294967296 := (by decide : 1 < 4294967296)
  have hkey (letter : UInt8) (t : Bytes) :
      readItem fuel 2 false (writeKey letter t) = .ok (.text [[letter]], t) :=
    readItem_writeText hpos (hletter letter) t
  have hname (t : Bytes) : readItem fuel 2 false (writeText e.name t) = .ok (.text [e.name], t) :=
    readItem_writeText hpos h.name_lt t
  have hvalue := readItem_writeStored e.value h.value_fits (by decide : 2 + 2 * maxLevels = 30) rest
    hfuel
  rw [readItem_map (by decide) (by decide)]
  simp only [Nat.reduceAdd, readMany, hkey, hname, hvalue]
  split_ifs <;> rfl

theorem readMany_writePairs (es : List Entry) (h : ∀ e ∈ es, e.Fits) {fuel : Nat}
    (hfuel : (writePairs es []).length < fuel) :
    readMany (readItem fuel 1 false) es.length (writePairs es []) =
      if es.all (·.value.isShallow maxLevels) then .ok (es.map entryItem, [])
      else .error .invalid := by
  induction es with
  | nil => rfl
  | cons e es ih =>
    have hvalue := length_lt_writeStored e.value (writePairs es [])
    have hname :=
      length_lt_writeText e.name (writeKey 0x76 (writeStored e.value (writePairs es [])))
    have hhead := length_lt_writeHead 5 2 (writeKey 0x6e (writeText e.name (writeKey 0x76
      (writeStored e.value (writePairs es [])))))
    simp only [writeKey, List.length_cons] at hname hhead
    rw [writePairs] at hfuel ⊢
    simp only [writeKey] at hfuel
    obtain ⟨fuel, rfl⟩ : ∃ m, fuel = m + 1 := ⟨fuel - 1, by omega⟩
    rw [List.length_cons, readMany, readItem_entry (h e List.mem_cons_self) _ (by omega),
      List.all_cons]
    cases e.value.isShallow maxLevels with
    | false => rfl
    | true =>
      simp only [↓reduceIte, Bool.true_and]
      rw [ih (fun e' he' => h e' (List.mem_cons_of_mem e he')) (by omega)]
      split_ifs <;> rfl

theorem all_isPortable (es : List Entry) :
    es.all Entry.isPortable =
      (es.all (·.value.isShallow maxLevels) &&
        es.all fun e => Utf8.isUtf8 e.name && e.value.isUtf8) := by
  induction es with
  | nil => rfl
  | cons e es ih =>
    simp only [List.all_cons, ih, Entry.isPortable]
    cases Utf8.isUtf8 e.name <;> cases e.value.isShallow maxLevels <;> cases e.value.isUtf8 <;>
      simp

/-- The reader takes back exactly the bindings within its limits. -/
theorem readEntries_writeEntries {es : List Entry} (hlen : es.length < 4294967296)
    (h : ∀ e ∈ es, e.Fits) :
    readEntries (writeEntries es) =
      if es.length ≤ maxElements ∧ es.all Entry.isPortable = true then .ok es
      else .error .invalid := by
  have hhead := length_lt_writeHead 4 es.length (writePairs es [])
  have hnonempty : (writeHead 4 es.length (writePairs es [])).isEmpty = false :=
    List.isEmpty_eq_false_iff.2 (List.ne_nil_of_length_pos (by omega))
  rw [readEntries, readOnly, writeEntries, hnonempty, all_isPortable]
  simp only [Bool.false_eq_true, ↓reduceIte, Bool.and_eq_true]
  by_cases hmany : es.length ≤ maxElements
  · rw [readItem_array (by decide) hmany, readMany_writePairs es h (by omega)]
    by_cases hshallow : es.all (·.value.isShallow maxLevels) = true
    · have hcollect : (elemsOf? (.array (es.map entryItem))).bind (collect entryOf?) = _ :=
        collect_entryItem es h hshallow
      simp only [hmany, hshallow, true_and, ↓reduceIte, Except.map, List.isEmpty_nil, hcollect]
      split_ifs <;> rfl
    · rw [if_neg hshallow, if_neg (fun hall => hshallow hall.2.1)]
      rfl
  · rw [readItem_tooMany (Nat.lt_of_not_le hmany) hlen, if_neg (fun hall => hmany hall.1)]

end Cbor

end SpanLisp
