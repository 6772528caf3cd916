import SpanLisp.Proofs.JsonStrings
import SpanLisp.Proofs.KnownValues

/-!
# Values written as JSON are read back

`Json.Plain` are the data that values stand for: whole numbers of 64 bits, texts in UTF-8, names,
and sequences of them up to a depth.  A reader cannot tell a positive number of the program from an
unsigned one (`Json.asRead`); everything else is read back as it was, off the front of any text
that does not go on with a number (`readValue_render`).  Nothing that is written has a control
character in it (`isClean_write`).
-/

namespace SpanLisp

namespace Json

/-! ### Numbers -/

/-- What follows a number does not go on with it. -/
def Ends (rest : Bytes) : Prop := ∀ b ∈ rest.head?, isNumeric b = false

theorem split_number {t rest : Bytes} (ht : ∀ b ∈ t, isNumeric b = true) (hrest : Ends rest) :
    (t ++ rest).takeWhile isNumeric = t ∧ (t ++ rest).dropWhile isNumeric = rest := by
  rw [List.takeWhile_append_of_pos ht, List.dropWhile_append_of_pos ht]
  cases rest with
  | nil => simp
  | cons b rest =>
    have hb : isNumeric b = false := hrest b rfl
    simp [hb]

theorem isNumeric_of_mem_ofNat {n : Nat} {b : UInt8} (h : b ∈ Decimal.ofNat n) :
    isNumeric b = true := by
  simp [isNumeric, Decimal.isDigit_of_mem_ofNat h]

theorem word?_ofNat {n : Nat} (h : n ≤ 18446744073709551615) :
    word? (Decimal.ofNat n) = some n := by
  have hdigits : (Decimal.ofNat n).all Decimal.isDigit = true :=
    List.all_eq_true.2 fun b hb => Decimal.isDigit_of_mem_ofNat hb
  simp only [word?, Decimal.toNat_ofNat, hdigits, h, and_self, if_true]

theorem number?_ofNat {n : Nat} (h : n ≤ 18446744073709551615) :
    number? (Decimal.ofNat n) = some (.unsigned n) := by
  have hword := word?_ofNat h
  cases ht : Decimal.ofNat n with
  | nil => exact absurd ht (Decimal.ofNat_ne_nil n)
  | cons b t =>
    have hb : b ≠ 0x2d := by
      rintro rfl
      have hdigit : Decimal.isDigit 0x2d = true :=
        Decimal.isDigit_of_mem_ofNat (n := n) (ht ▸ List.mem_cons_self)
      cases hdigit
    rw [ht] at hword
    rw [number?]
    · simp only [hword]
    · simp
    · simp [hb]

theorem number?_negative {n : Nat} (h : n ≤ 9223372036854775808) :
    number? (0x2d :: Decimal.ofNat n) = some (.signed (-(n : Int))) := by
  simp only [number?, word?_ofNat (Nat.le_trans h (by decide)), negated?, h, if_true,
    Option.map_some]

theorem ofInt_ne_nil (n : Int) : Decimal.ofInt n ≠ [] := by
  cases n with
  | ofNat n => exact Decimal.ofNat_ne_nil n
  | negSucc n => exact List.cons_ne_nil _ _

theorem isNumeric_of_mem_ofInt {n : Int} {b : UInt8} (h : b ∈ Decimal.ofInt n) :
    isNumeric b = true := by
  cases n with
  | ofNat n => exact isNumeric_of_mem_ofNat h
  | negSucc n =>
    obtain rfl | h := List.mem_cons.1 h
    · rfl
    · exact isNumeric_of_mem_ofNat h

/-- A scalar as it is read: a whole number without a minus sign is unsigned. -/
def Scalar.asRead : Scalar → Scalar
  | .signed n => if 0 ≤ n then .unsigned n.toNat else .signed n
  | x => x

theorem number?_ofInt {n : Int} (hlow : -9223372036854775808 ≤ n)
    (hhigh : n ≤ 9223372036854775807) :
    number? (Decimal.ofInt n) = some (Scalar.signed n).asRead := by
  cases n with
  | ofNat n =>
    have hn : (n : Int) ≤ 9223372036854775807 := hhigh
    exact number?_ofNat (by omega)
  | negSucc n => exact number?_negative (by omega)

/-! ### Data -/

/-- A number of 64 bits, a text in UTF-8 or a name. -/
def Scalar.Plain : Scalar → Prop
  | .null | .bool _ => True
  | .unsigned n => n ≤ 18446744073709551615
  | .signed n => -9223372036854775808 ≤ n ∧ n ≤ 9223372036854775807
  | .real _ => False
  | .text s => Utf8.isUtf8 s = true

mutual

/-- A datum as it is read. -/
def asRead : Json → Json
  | scalar x => .scalar x.asRead
  | array xs => .array (asReadAll xs)
  | object fs => .object fs

/-- Data as they are read. -/
def asReadAll : List Json → List Json
  | [] => []
  | x :: xs => asRead x :: asReadAll xs

end

mutual

/-- Plain scalars, and sequences of such data nested at most `depth` deep. -/
def Plain : Json → (depth : Nat) → Prop
  | scalar x, _ => x.Plain
  | array _, 0 => False
  | array xs, depth + 1 => PlainAll xs depth
  | object _, _ => False

/-- Are all data plain? -/
def PlainAll : List Json → (depth : Nat) → Prop
  | [], _ => True
  | x :: xs, depth => Plain x depth ∧ PlainAll xs depth

end

theorem writeElems_cons_cons (x y : Json) (xs : List Json) (rest : Bytes) :
    writeElems (x :: y :: xs) rest = x.write (0x2c :: writeElems (y :: xs) rest) := rfl

theorem writeFields_cons_cons (k : Scalar) (x : Json) (f : Scalar × Json)
    (fs : List (Scalar × Json)) (rest : Bytes) :
    writeFields ((k, x) :: f :: fs) rest =
      k.render ++ 0x3a :: x.write (0x2c :: writeFields (f :: fs) rest) := rfl

mutual

theorem write_append : ∀ (x : Json) (r rest : Bytes), x.write (r ++ rest) = x.write r ++ rest
  | scalar x, r, rest => by simp [write]
  | array xs, r, rest => by
    rw [write, write, ← List.cons_append, writeElems_append, List.cons_append]
  | object fs, r, rest => by
    rw [write, write, ← List.cons_append, writeFields_append, List.cons_append]

theorem writeElems_append : ∀ (xs : List Json) (r rest : Bytes),
    writeElems xs (r ++ rest) = writeElems xs r ++ rest
  | [], _, _ => rfl
  | [x], r, rest => by rw [writeElems, writeElems, write_append]
  | x :: y :: xs, r, rest => by
    rw [writeElems_cons_cons, writeElems_cons_cons, writeElems_append (y :: xs),
      ← List.cons_append, write_append]

theorem writeFields_append : ∀ (fs : List (Scalar × Json)) (r rest : Bytes),
    writeFields fs (r ++ rest) = writeFields fs r ++ rest
  | [], _, _ => rfl
  | [(k, x)], r, rest => by
    rw [writeFields, writeFields, write_append, List.append_assoc, List.cons_append]
  | (k, x) :: f :: fs, r, rest => by
    rw [writeFields_cons_cons, writeFields_cons_cons, writeFields_append (f :: fs),
      ← List.cons_append, write_append, List.append_assoc, List.cons_append]

end

theorem write_eq (x : Json) (rest : Bytes) : x.write rest = x.render ++ rest :=
  write_append x [] rest

/-- The elements after the first, each behind a comma. -/
def renderTail (xs : List Json) : Bytes := xs.flatMap fun x => 0x2c :: x.render

theorem writeElems_cons (x : Json) (xs : List Json) (rest : Bytes) :
    writeElems (x :: xs) rest = x.render ++ (renderTail xs ++ rest) := by
  induction xs generalizing x with
  | nil => exact write_eq x rest
  | cons y xs ih =>
    rw [writeElems_cons_cons, ih y, write_eq]
    simp [renderTail]

/-! ### Reading data back -/

theorem skipBlanks_cons {b : UInt8} (h : isBlank b = false) (rest : Bytes) :
    skipBlanks (b :: rest) = b :: rest := by
  simp [skipBlanks, h]

theorem readValue_of_readScalar {b : UInt8} {t rest : Bytes} {x : Scalar}
    (hblank : isBlank b = false) (hnull : b ≠ 0x6e) (harray : b ≠ 0x5b) (hobject : b ≠ 0x7b)
    (h : readScalar b t = some (x, rest)) (fuel depth : Nat) (isKey : Bool) :
    readValue (fuel + 1) depth isKey .null (b :: t) = some (.scalar x, rest) := by
  rw [readValue, skipBlanks_cons hblank]
  cases depth with
  | zero => simp [hnull, harray, hobject, h]
  | succ depth => simp [hnull, harray, hobject, h]

theorem isBlank_of_isNumeric {b : UInt8} (h : isNumeric b = true) : isBlank b = false := by
  simp only [isNumeric, Decimal.isDigit, Bool.or_eq_true, Bool.and_eq_true, decide_eq_true_eq,
    UInt8.le_iff_toNat_le, ← UInt8.toNat_inj, UInt8.reduceToNat] at h
  simp only [isBlank, decide_eq_false_iff_not, UInt8.le_iff_toNat_le, UInt8.reduceToNat]
  omega

theorem readValue_number {t rest : Bytes} {x : Scalar} (hne : t ≠ [])
    (ht : ∀ b ∈ t, isNumeric b = true) (h : number? t = some x) (hrest : Ends rest)
    (fuel depth : Nat) (isKey : Bool) :
    readValue (fuel + 1) depth isKey .null (t ++ rest) = some (.scalar x, rest) := by
  obtain ⟨htake, hdrop⟩ := split_number ht hrest
  cases t with
  | nil => exact absurd rfl hne
  | cons b t =>
    have hb : isNumeric b = true := ht b List.mem_cons_self
    have hother {c : UInt8} (hc : isNumeric c = false) : b ≠ c := by
      rintro rfl
      rw [hb] at hc
      cases hc
    rw [List.cons_append] at htake hdrop ⊢
    apply readValue_of_readScalar (isBlank_of_isNumeric hb) (hother rfl) (hother rfl) (hother rfl)
    simp only [readScalar, hother (c := 0x22) rfl, hother (c := 0x6e) rfl,
      hother (c := 0x74) rfl, hother (c := 0x66) rfl, or_self, if_false, htake, hdrop, h,
      Option.map_some]

theorem readValue_scalar {x : Scalar} (hx : x.Plain) {rest : Bytes} (hrest : Ends rest)
    (fuel depth : Nat) (isKey : Bool) :
    readValue (fuel + 1) depth isKey .null (x.render ++ rest) = some (.scalar x.asRead, rest) := by
  cases x with
  | null =>
    change readValue (fuel + 1) depth isKey .null (0x6e :: (utf8 "ull" ++ rest)) = _
    rw [readValue, skipBlanks_cons rfl]
    rfl
  | bool b =>
    cases b with
    | true => exact readValue_of_readScalar rfl (by decide) (by decide) (by decide) rfl ..
    | false => exact readValue_of_readScalar rfl (by decide) (by decide) (by decide) rfl ..
  | unsigned n =>
    exact readValue_number (Decimal.ofNat_ne_nil n) (fun b hb => isNumeric_of_mem_ofNat hb)
      (number?_ofNat hx) hrest ..
  | signed n =>
    exact readValue_number (ofInt_ne_nil n) (fun b hb => isNumeric_of_mem_ofInt hb)
      (number?_ofInt hx.1 hx.2) hrest ..
  | real x => exact hx.elim
  | text s =>
    have hread := readString_quote hx rest
    have hquote : quote s ++ rest =
        0x22 :: ((Utf8.runes s).flatMap escapeRune ++ 0x22 :: rest) := by
      simp [quote]
    rw [Scalar.render, hquote]
    apply readValue_of_readScalar rfl (by decide) (by decide) (by decide)
    simp only [readScalar, hread, if_true, Option.map_some]
    rfl

/-- A text that starts neither with a blank nor with the end of a sequence. -/
def Starts (t : Bytes) : Prop := ∃ b u, t = b :: u ∧ isBlank b = false ∧ b ≠ 0x5d

theorem Starts.append {t : Bytes} (h : Starts t) (rest : Bytes) : Starts (t ++ rest) := by
  obtain ⟨b, u, rfl, hb⟩ := h
  exact ⟨b, u ++ rest, rfl, hb⟩

theorem starts_number {t : Bytes} (hne : t ≠ []) (ht : ∀ b ∈ t, isNumeric b = true) : Starts t := by
  cases t with
  | nil => exact absurd rfl hne
  | cons b u =>
    have hb : isNumeric b = true := ht b List.mem_cons_self
    refine ⟨b, u, rfl, isBlank_of_isNumeric hb, ?_⟩
    rintro rfl
    cases hb

theorem Scalar.starts_render {x : Scalar} (hx : x.Plain) : Starts x.render := by
  cases x with
  | null => exact ⟨0x6e, _, rfl, rfl, by decide⟩
  | bool b =>
    cases b with
    | true => exact ⟨0x74, _, rfl, rfl, by decide⟩
    | false => exact ⟨0x66, _, rfl, rfl, by decide⟩
  | unsigned n =>
    exact starts_number (Decimal.ofNat_ne_nil n) fun b hb => isNumeric_of_mem_ofNat hb
  | signed n => exact starts_number (ofInt_ne_nil n) fun b hb => isNumeric_of_mem_ofInt hb
  | real x => exact hx.elim
  | text s => exact ⟨0x22, _, rfl, rfl, by decide⟩

theorem render_scalar (x : Scalar) : (scalar x).render = x.render := List.append_nil _

theorem starts_render {x : Json} {depth : Nat} (hx : x.Plain depth) : Starts x.render := by
  cases x with
  | scalar x =>
    rw [render_scalar]
    exact Scalar.starts_render hx
  | array xs => exact ⟨0x5b, _, rfl, rfl, by decide⟩
  | object fs => exact hx.elim

theorem readElems_end (fuel depth : Nat) (first : Bool) (rest : Bytes) :
    readElems (fuel + 1) depth first (0x5d :: rest) = some ([], rest) := by
  rw [readElems, skipBlanks_cons rfl]
  rfl

theorem readElems_first {fuel depth : Nat} {t t' rest : Bytes} {x : Json} {xs : List Json}
    (ht : Starts t) (hx : readValue fuel depth false .null t = some (x, t'))
    (hxs : readElems fuel depth false t' = some (xs, rest)) :
    readElems (fuel + 1) depth true t = some (x :: xs, rest) := by
  obtain ⟨b, u, rfl, hblank, hend⟩ := ht
  rw [readElems, skipBlanks_cons hblank]
  simp [hend, hx, hxs]

theorem readElems_comma {fuel depth : Nat} {t t' rest : Bytes} {x : Json} {xs : List Json}
    (hx : readValue fuel depth false .null t = some (x, t'))
    (hxs : readElems fuel depth false t' = some (xs, rest)) :
    readElems (fuel + 1) depth false (0x2c :: t) = some (x :: xs, rest) := by
  rw [readElems, skipBlanks_cons rfl]
  simp [hx, hxs]

theorem readValue_array {fuel depth : Nat} {isKey : Bool} {t rest : Bytes} {xs : List Json}
    (h : readElems fuel depth true t = some (xs, rest)) :
    readValue (fuel + 1) (depth + 1) isKey .null (0x5b :: t) = some (.array xs, rest) := by
  rw [readValue, skipBlanks_cons rfl]
  simp [h]

theorem ends_renderTail (xs : List Json) (rest : Bytes) : Ends (renderTail xs ++ 0x5d :: rest) := by
  cases xs with
  | nil =>
    rintro b ⟨⟩
    rfl
  | cons x xs =>
    rintro b ⟨⟩
    rfl

mutual

/-- A datum is read back off the front of a text, with fuel for twice the length of the text. -/
theorem readValue_render : ∀ {x : Json} {depth : Nat}, x.Plain depth →
    ∀ {fuel : Nat} {rest : Bytes}, Ends rest → 2 * (x.render ++ rest).length ≤ fuel →
    ∀ isKey, readValue fuel depth isKey .null (x.render ++ rest) = some (x.asRead, rest)
  | scalar x, depth, hx, fuel, rest, hrest, hfuel, isKey => by
    obtain ⟨b, t, hhead, -⟩ := Scalar.starts_render hx
    rw [render_scalar] at hfuel ⊢
    simp only [hhead, List.length_append, List.length_cons] at hfuel
    obtain ⟨fuel, rfl⟩ : ∃ k, fuel = k + 1 := ⟨fuel - 1, by omega⟩
    exact readValue_scalar hx hrest fuel depth isKey
  | array [], depth + 1, _, fuel, rest, _, hfuel, isKey => by
    change 2 * (rest.length + 2) ≤ fuel at hfuel
    obtain ⟨fuel, rfl⟩ : ∃ k, fuel = k + 2 := ⟨fuel - 2, by omega⟩
    change readValue (fuel + 2) (depth + 1) isKey .null (0x5b :: 0x5d :: rest) = _
    apply readValue_array
    exact readElems_end ..
  | array (x :: xs), depth + 1, hx, fuel, rest, _, hfuel, isKey => by
    have hrender : (array (x :: xs)).render ++ rest =
        0x5b :: (x.render ++ (renderTail xs ++ 0x5d :: rest)) := by
      rw [← write_eq, write, writeElems_cons]
    rw [hrender] at hfuel ⊢
    obtain ⟨b, t, hhead, -⟩ := starts_render hx.1
    have hlength : x.render.length = t.length + 1 := by rw [hhead, List.length_cons]
    simp only [List.length_cons, List.length_append] at hfuel
    obtain ⟨fuel, rfl⟩ : ∃ k, fuel = k + 2 := ⟨fuel - 2, by omega⟩
    apply readValue_array
    -- the bracket pays for both calls, and the element for the one on the elements after it
    apply readElems_first ((starts_render hx.1).append _)
    · apply readValue_render hx.1 (ends_renderTail xs rest)
      simp only [List.length_cons, List.length_append]
      omega
    · apply readElems_renderTail hx.2
      simp only [List.length_cons, List.length_append]
      omega

/-- The elements after the first are read back, with fuel for more than twice the length. -/
theorem readElems_renderTail : ∀ {xs : List Json} {depth : Nat}, PlainAll xs depth →
    ∀ {fuel : Nat} {rest : Bytes}, 2 * (renderTail xs ++ 0x5d :: rest).length < fuel →
    readElems fuel depth false (renderTail xs ++ 0x5d :: rest) = some (asReadAll xs, rest)
  | [], depth, _, fuel, rest, hfuel => by
    obtain ⟨fuel, rfl⟩ : ∃ k, fuel = k + 1 := ⟨fuel - 1, by omega⟩
    exact readElems_end ..
  | x :: xs, depth, hx, fuel, rest, hfuel => by
    have hrender : renderTail (x :: xs) ++ 0x5d :: rest =
        0x2c :: (x.render ++ (renderTail xs ++ 0x5d :: rest)) := by
      simp [renderTail]
    rw [hrender] at hfuel ⊢
    simp only [List.length_cons, List.length_append] at hfuel
    obtain ⟨fuel, rfl⟩ : ∃ k, fuel = k + 1 := ⟨fuel - 1, by omega⟩
    apply readElems_comma
    · apply readValue_render hx.1 (ends_renderTail xs rest)
      simp only [List.length_cons, List.length_append]
      omega
    · apply readElems_renderTail hx.2
      simp only [List.length_cons, List.length_append]
      omega

end

theorem read?_render {x : Json} (hx : x.Plain maxDepth) : read? x.render = some x.asRead := by
  have hends : Ends [] := by simp [Ends]
  have hfuel : 2 * (x.render ++ []).length ≤ 2 * x.render.length + 2 := by simp
  have hread := readValue_render hx hends hfuel false
  rw [List.append_nil] at hread
  rw [read?, hread]
  rfl

/-! ### Control characters -/

theorem isClean_number {t : Bytes} (ht : ∀ b ∈ t, isNumeric b = true) : isClean t = true := by
  apply isClean_of_forall
  intro b hb
  have hblank := isBlank_of_isNumeric (ht b hb)
  simp only [isBlank, decide_eq_false_iff_not, UInt8.le_iff_toNat_le] at hblank
  exact Nat.le_of_lt (Nat.not_le.1 hblank)

theorem Scalar.isClean_render (x : Scalar) : isClean x.render = true := by
  cases x with
  | null | real x => rfl
  | bool b => cases b <;> rfl
  | unsigned n => exact isClean_number fun b hb => isNumeric_of_mem_ofNat hb
  | signed n => exact isClean_number fun b hb => isNumeric_of_mem_ofInt hb
  | text s => exact isClean_quote s

mutual

theorem isClean_write : ∀ (x : Json) {rest : Bytes}, isClean rest = true →
    isClean (x.write rest) = true
  | scalar x, rest, h => by rw [write, isClean_append, x.isClean_render, h]; rfl
  | array xs, _, h => isClean_writeElems xs h
  | object fs, _, h => isClean_writeFields fs h

theorem isClean_writeElems : ∀ (xs : List Json) {rest : Bytes}, isClean rest = true →
    isClean (writeElems xs rest) = true
  | [], _, h => h
  | [x], _, h => isClean_write x h
  | x :: y :: xs, _, h => isClean_write x (isClean_writeElems (y :: xs) h)

theorem isClean_writeFields : ∀ (fs : List (Scalar × Json)) {rest : Bytes}, isClean rest = true →
    isClean (writeFields fs rest) = true
  | [], _, h => h
  | [(k, x)], rest, h => by
    rw [writeFields, isClean_append, k.isClean_render]
    exact isClean_write x h
  | (k, x) :: f :: fs, rest, h => by
    rw [writeFields_cons_cons, isClean_append, k.isClean_render]
    exact isClean_write x (isClean_writeFields (f :: fs) h)

end

end Json

/-! ### Values -/

namespace Value

mutual

/-- Are the strings and the names of the keywords inside the value UTF-8? -/
def IsUtf8 (names : Interner) : Value → Prop
  | string s => Utf8.isUtf8 s = true
  | keyword sym => Utf8.isUtf8 (symbolText names sym) = true
  | vector vs => AreUtf8 names vs
  | nil | bool _ | integer _ | function _ | unlisted _ => True

/-- Are the strings and the names of the keywords inside the values UTF-8? -/
def AreUtf8 (names : Interner) : List Value → Prop
  | [] => True
  | v :: vs => IsUtf8 names v ∧ AreUtf8 names vs

end

mutual

/-- How deep vectors nest in the value. -/
def nesting : Value → Nat
  | vector vs => nestingAll vs + 1
  | nil | bool _ | integer _ | string _ | keyword _ | function _ | unlisted _ => 0

/-- How deep vectors nest in the values. -/
def nestingAll : List Value → Nat
  | [] => 0
  | v :: vs => max (nesting v) (nestingAll vs)

end

theorem isUtf8_keywordText {names : Interner} {sym : Symbol}
    (h : Utf8.isUtf8 (symbolText names sym) = true) :
    Utf8.isUtf8 (keywordText names sym) = true := by
  rw [keywordText, Utf8.isUtf8, Utf8.runes_cons_of_lt (by decide), List.all_cons]
  exact h

theorem isUtf8_functionText {index : Int} {f : Builtin} (h : Builtin.get? index = some f) :
    Utf8.isUtf8 (functionText index) = true := by
  have hall : Builtin.table.all
      (fun f => Utf8.isUtf8 (utf8 "<function " ++ f.name ++ utf8 ">")) = true := by
    decide
  rw [functionText, h]
  exact List.all_eq_true.1 hall f (Builtin.mem_table_of_get? h)

mutual

theorem plain_toJson {names : Interner} : ∀ {v : Value} {depth : Nat}, v.Known names →
    v.IsUtf8 names → v.nesting ≤ depth → (v.toJson names).Plain depth
  | nil, _, _, _, _ | bool _, _, _, _, _ => trivial
  | integer n, _, _, _, _ => ⟨n.le_toInt, Int.le_of_lt_add_one n.toInt_lt⟩
  | string _, _, _, h, _ => h
  | keyword _, _, _, h, _ => isUtf8_keywordText h
  | function _, _, ⟨_, hf⟩, _, _ => isUtf8_functionText hf
  | vector vs, 0, _, _, hdepth => by simp [nesting] at hdepth
  | vector vs, depth + 1, hknown, h, hdepth =>
    plainAll_toJsonAll hknown h (Nat.le_of_succ_le_succ hdepth)

theorem plainAll_toJsonAll {names : Interner} : ∀ {vs : List Value} {depth : Nat},
    KnownAll names vs → AreUtf8 names vs → nestingAll vs ≤ depth →
    Json.PlainAll (toJsonAll names vs) depth
  | [], _, _, _, _ => trivial
  | _ :: _, _, ⟨hv, hvs⟩, ⟨hu, hus⟩, hdepth =>
    ⟨plain_toJson hv hu (Nat.le_trans (Nat.le_max_left _ _) hdepth),
      plainAll_toJsonAll hvs hus (Nat.le_trans (Nat.le_max_right _ _) hdepth)⟩

end

/-- A value whose keywords and functions are known, as those of every session are, has a JSON text
without control characters.  Reading the text gives the data that the value stands for, its
numbers signed or unsigned by their sign. -/
theorem json_read_back {names : Interner} {v : Value} (hknown : v.Known names)
    (hutf8 : v.IsUtf8 names) (hnesting : v.nesting < 1000) :
    ∃ text, v.json names = .ok text ∧ (∀ b ∈ text, 0x20 ≤ b) ∧
      Json.read? text = some (v.toJson names).asRead := by
  refine ⟨(v.toJson names).render, json_of_known hknown, ?_, ?_⟩
  · intro b hb
    have hclean : Json.isClean (v.toJson names).render = true := Json.isClean_write _ rfl
    simpa using List.all_eq_true.1 hclean b hb
  · apply Json.read?_render
    apply plain_toJson hknown hutf8
    rw [Json.maxDepth]
    omega

/-- A string of a quote, a backslash, two control characters, U+2028 and U+1F600, the least number,
a keyword and a function inside. -/
theorem json_read_back_vector :
    let names : Interner := ⟨[utf8 "k"]⟩
    let s : Bytes := [0x22, 0x5c, 0x01, 0x0a, 0xe2, 0x80, 0xa8, 0xf0, 0x9f, 0x98, 0x80]
    let v : Value :=
      .vector [.string s, .integer (-9223372036854775808), .vector [.keyword 0, .function 0]]
    ∃ text, v.json names = .ok text ∧ (∀ b ∈ text, 0x20 ≤ b) ∧
      Json.read? text = some (.array [.scalar (.text s),
        .scalar (.signed (-9223372036854775808)),
        .array [.scalar (.text (utf8 ":k")), .scalar (.text (utf8 "<function +>"))]]) := by
  intro names s v
  have hknown : v.Known names := ⟨trivial, trivial, ⟨Nat.zero_lt_one, ⟨_, rfl⟩, trivial⟩, trivial⟩
  have hutf8 : v.IsUtf8 names := ⟨rfl, trivial, ⟨rfl, trivial, trivial⟩, trivial⟩
  exact json_read_back hknown hutf8 (by decide)

end Value

end SpanLisp
