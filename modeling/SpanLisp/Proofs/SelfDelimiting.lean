import SpanLisp.Proofs.PackCodec

/-!
# The MessagePack form is self-delimiting

`Pack.Takes` says of a reader that what it takes off the front of a text has a written form, and
that it takes the same off the front of every longer text.  There is a rule for each way to build a
reader; a reader of counted things compares the count with the number of bytes left, which more
bytes only raise (`takes_counted`).  So no accepted text is the front of another
(`readEntries_append`), and what is accepted in any form can be written in the shortest
(`fits_of_readEntries`).
-/

namespace SpanLisp

namespace Word

theorem foldl_lt_count (t : Bytes) :
    ∀ acc, t.foldl (fun n b => 256 * n + b.toNat) acc < count t.length * (acc + 1) := by
  induction t with
  | nil =>
    intro acc
    simp [count]
  | cons b t ih =>
    intro acc
    have hb := b.toNat_lt
    have hstep : 256 * acc + b.toNat + 1 ≤ 256 * (acc + 1) := by omega
    rw [List.foldl_cons, List.length_cons, count]
    calc
      _ < count t.length * (256 * acc + b.toNat + 1) := ih _
      _ ≤ count t.length * (256 * (acc + 1)) := Nat.mul_le_mul_left _ hstep
      _ = 256 * count t.length * (acc + 1) := by rw [← Nat.mul_assoc, Nat.mul_comm 256]

theorem value_lt (t : Bytes) : value t < count t.length := by
  have h := foldl_lt_count t 0
  rwa [Nat.zero_add, Nat.mul_one] at h

end Word

namespace Pack

/-! ### Writing in front of other bytes -/

theorem writeSigned_eq_append (k : Nat) (n : Int) (rest : Bytes) :
    writeSigned k n rest = writeSigned k n [] ++ rest := Word.write_eq_append k _ rest

theorem writeInt_eq_append (n : Int64) (rest : Bytes) :
    writeInt n rest = writeInt n [] ++ rest := by
  simp only [writeInt, writeSigned_eq_append _ _ rest]
  split_ifs <;> rfl

theorem writeString_eq_append (s rest : Bytes) : writeString s rest = writeString s [] ++ rest := by
  have hword (k : Nat) : Word.write k s.length (s ++ rest) = Word.write k s.length s ++ rest := by
    rw [Word.write_eq_append, Word.write_eq_append k _ s, List.append_assoc]
  simp only [writeString, hword, List.append_nil]
  split_ifs <;> rfl

theorem writeArrayHead_eq_append (n : Nat) (rest : Bytes) :
    writeArrayHead n rest = writeArrayHead n [] ++ rest := by
  simp only [writeArrayHead, Word.write_eq_append _ _ rest]
  split_ifs <;> rfl

/-- The head of a value stands in front of its payload. -/
theorem writeHead_eq_append {kind : Int64} {payload payload' rest : Bytes}
    (h : payload = payload' ++ rest) :
    writeArrayHead 2 (writeInt kind payload) =
      writeArrayHead 2 (writeInt kind payload') ++ rest := by
  rw [writeArrayHead_eq_append, writeInt_eq_append, h,
    writeArrayHead_eq_append 2 (writeInt kind payload'), writeInt_eq_append kind payload',
    List.append_assoc, List.append_assoc]

mutual

theorem writeStored_eq_append (s : Stored) (rest : Bytes) :
    writeStored s rest = writeStored s [] ++ rest := by
  rw [writeStored.eq_def, writeStored.eq_def s []]
  apply writeHead_eq_append
  cases s with
  | nil | unlisted | bool => rfl
  | integer n => exact writeInt_eq_append n rest
  | string t | keyword t | function t => exact writeString_eq_append t rest
  | vector elems =>
    simp only
    rw [writeArrayHead_eq_append, writeAll_eq_append, writeArrayHead_eq_append _ (writeAll _ []),
      List.append_assoc]

theorem writeAll_eq_append (ss : List Stored) (rest : Bytes) :
    writeAll ss rest = writeAll ss [] ++ rest := by
  cases ss with
  | nil => rfl
  | cons s ss =>
    rw [writeAll, writeAll, writeStored_eq_append, writeAll_eq_append ss rest,
      writeStored_eq_append s (writeAll ss []), List.append_assoc]

end

/-! ### Readers that delimit what they take -/

section Takes

variable {α β : Type} {P : α → Prop} {Q : β → Prop}

/-- Whatever the first reader takes satisfies `P`, and the second reader takes it too, with more
bytes behind it. -/
def Takes (P : α → Prop) (read read' : Bytes → Except Failure (α × Bytes)) : Prop :=
  ∀ ⦃t rest : Bytes⦄ ⦃a : α⦄, read t = .ok (a, rest) →
    P a ∧ ∀ more, read' (t ++ more) = .ok (a, rest ++ more)

variable {read read' : Bytes → Except Failure (α × Bytes)}

theorem Takes.imp {P' : α → Prop} (h : Takes P read read') (himp : ∀ a, P a → P' a) :
    Takes P' read read' :=
  fun _ _ a ha => ⟨himp a (h ha).1, (h ha).2⟩

theorem takes_pure {a : α} (ha : P a) : Takes P (fun t => .ok (a, t)) fun t => .ok (a, t) := by
  intro t rest a' h
  obtain ⟨rfl, rfl⟩ := Prod.mk.inj (Except.ok.inj h)
  exact ⟨ha, fun _ => rfl⟩

theorem takes_error {e : Failure} : Takes P (fun _ => .error e) read' := by
  intro t rest a h
  cases h

theorem Takes.bind (h : Takes P read read') {f f' : α × Bytes → Except Failure (β × Bytes)}
    (hf : ∀ a, P a → Takes Q (fun t => f (a, t)) fun t => f' (a, t)) :
    Takes Q (fun t => (read t).bind f) fun t => (read' t).bind f' := by
  intro t rest b hb
  simp only at hb
  cases hr : read t with
  | error e =>
    rw [hr] at hb
    cases hb
  | ok r =>
    rw [hr] at hb
    obtain ⟨ha, hmore⟩ := h hr
    obtain ⟨hQ, hmore'⟩ := hf r.1 ha hb
    refine ⟨hQ, fun more => ?_⟩
    simp only
    rw [hmore]
    exact hmore' more

theorem Takes.map (h : Takes P read read') {f : α → β} (hf : ∀ a, P a → Q (f a)) :
    Takes Q (fun t => (read t).map fun r => (f r.1, r.2))
      fun t => (read' t).map fun r => (f r.1, r.2) :=
  h.bind fun a ha => takes_pure (hf a ha)

theorem Takes.ite {c : Prop} [Decidable c] {f f' : Bytes → Except Failure (α × Bytes)}
    (h : c → Takes P read read') (hf : ¬ c → Takes P f f') :
    Takes P (fun t => if c then read t else f t) fun t => if c then read' t else f' t := by
  by_cases hc : c
  · simp only [if_pos hc]
    exact h hc
  · simp only [if_neg hc]
    exact hf hc

/-- A reader that takes nothing from nothing is known by what it does behind each first byte. -/
theorem takes_of_first {e : Failure} (hnil : read [] = .error e)
    (h : ∀ b, Takes P (fun t => read (b :: t)) fun t => read' (b :: t)) : Takes P read read' := by
  intro t rest a ha
  cases t with
  | nil =>
    rw [hnil] at ha
    cases ha
  | cons b t => exact h b ha

theorem takes_many (h : Takes P read read') :
    ∀ n, Takes (fun as : List α => as.length = n ∧ ∀ a ∈ as, P a) (readMany read n)
      (readMany read' n)
  | 0 => takes_pure ⟨rfl, fun _ ha => by cases ha⟩
  | n + 1 => by
    have heq (read : Bytes → Except Failure (α × Bytes)) : readMany read (n + 1) = fun t =>
        (read t).bind fun r => (readMany read n r.2).map fun q => (r.1 :: q.1, q.2) := by
      funext t
      rw [readMany]
      cases read t <;> rfl
    rw [heq, heq]
    refine h.bind fun a ha => (takes_many h n).map (f := (a :: ·)) ?_
    rintro as ⟨rfl, has⟩
    exact ⟨rfl, List.forall_mem_cons.2 ⟨ha, has⟩⟩

/-- With more bytes behind, there are still enough for the count. -/
theorem takes_counted (h : Takes P read read') (n : Nat) :
    Takes (fun as : List α => as.length = n ∧ ∀ a ∈ as, P a) (readCounted read n)
      (readCounted read' n) := by
  intro t rest as has
  unfold readCounted at has
  split_ifs at has with hlen
  obtain ⟨hP, hmore⟩ := takes_many h n has
  refine ⟨hP, fun more => ?_⟩
  rw [readCounted, if_neg (by rw [List.length_append]; omega)]
  exact hmore more

end Takes

/-! ### Items -/

theorem takes_take (k : Nat) : Takes (·.length = k) (take k) (take k) := by
  intro t rest s h
  unfold take at h
  split_ifs at h with hlen
  obtain ⟨rfl, rfl⟩ := Prod.mk.inj (Except.ok.inj h)
  have hk : (t.take k).length = k := by
    rw [List.length_take]
    omega
  refine ⟨hk, fun more => ?_⟩
  have happend := take_append (t.take k) (t.drop k ++ more)
  rwa [hk, ← List.append_assoc, List.take_append_drop] at happend

theorem takes_readWord (k : Nat) : Takes (· < Word.count k) (readWord k) (readWord k) := by
  refine (takes_take k).map fun s hs => ?_
  rw [← hs]
  exact Word.value_lt s

theorem takes_readSized (k : Nat) :
    Takes (·.length < Word.count k) (readSized k) (readSized k) := by
  have heq : readSized k = fun t => (readWord k t).bind fun r => take r.1 r.2 := by
    funext t
    rw [readSized]
    cases readWord k t <;> rfl
  rw [heq]
  refine (takes_readWord k).bind fun n hn => (takes_take n).imp fun s hs => ?_
  rw [hs]
  exact hn

theorem takes_readUnsigned (k : Nat) :
    Takes (fun _ => True) (readUnsigned k) (readUnsigned k) := by
  have heq : readUnsigned k = fun t => (readWord k t).bind fun r =>
      if Word.half ≤ r.1 then .error (.overflow r.1) else .ok (Int64.ofNat r.1, r.2) := by
    funext t
    rw [readUnsigned]
    cases readWord k t <;> rfl
  rw [heq]
  refine (takes_readWord k).bind fun n _ => ?_
  simp only
  exact .ite (fun _ => takes_error) fun _ => takes_pure trivial

theorem takes_readSigned (k : Nat) : Takes (fun _ => True) (readSigned k) (readSigned k) :=
  (takes_readWord k).map (f := fun n => Int64.ofInt (Word.signed k n)) fun _ _ => trivial

theorem takes_readInt : Takes (fun _ => True) readInt readInt := by
  refine takes_of_first rfl fun b => ?_
  simp only [readInt]
  refine .ite (fun _ => takes_pure trivial) fun _ => ?_
  refine .ite (fun _ => takes_pure trivial) fun _ => ?_
  refine .ite (fun _ => takes_readSigned 1) fun _ => ?_
  refine .ite (fun _ => takes_readSigned 2) fun _ => ?_
  refine .ite (fun _ => takes_readSigned 4) fun _ => ?_
  refine .ite (fun _ => takes_readSigned 8) fun _ => ?_
  refine .ite (fun _ => takes_readUnsigned 1) fun _ => ?_
  refine .ite (fun _ => takes_readUnsigned 2) fun _ => ?_
  refine .ite (fun _ => takes_readUnsigned 4) fun _ => ?_
  exact .ite (fun _ => takes_readUnsigned 8) fun _ => takes_error

theorem takes_readString : Takes (·.length < 4294967296) readString readString := by
  have hsized (k : Nat) (hk : Word.count k ≤ 4294967296) :
      Takes (·.length < 4294967296) (readSized k) (readSized k) :=
    (takes_readSized k).imp fun s hs => Nat.lt_of_lt_of_le hs hk
  refine takes_of_first rfl fun b => ?_
  have hlt := b.toNat_lt
  simp only [readString]
  refine .ite (fun _ => (takes_take _).imp fun s hs => by omega) fun _ => ?_
  refine .ite (fun _ => hsized 1 (by decide)) fun _ => ?_
  refine .ite (fun _ => hsized 2 (by decide)) fun _ => ?_
  exact .ite (fun _ => hsized 4 (by decide)) fun _ => takes_error

theorem takes_readBool : Takes (fun _ => True) readBool readBool := by
  refine takes_of_first rfl fun b => ?_
  simp only [readBool]
  refine .ite (fun _ => takes_pure trivial) fun _ => ?_
  exact .ite (fun _ => takes_pure trivial) fun _ => takes_error

/-- The heads of arrays and maps announce fewer than 2^32 things. -/
theorem takes_count {k : Nat} (hk : Word.count k ≤ 4294967296) :
    Takes (· < 4294967296) (readWord k) (readWord k) :=
  (takes_readWord k).imp fun _ hn => Nat.lt_of_lt_of_le hn hk

theorem takes_readArrayHead : Takes (· < 4294967296) readArrayHead readArrayHead := by
  refine takes_of_first rfl fun b => ?_
  have hlt := b.toNat_lt
  simp only [readArrayHead]
  refine .ite (fun _ => takes_pure (by omega)) fun _ => ?_
  refine .ite (fun _ => takes_count (by decide)) fun _ => ?_
  exact .ite (fun _ => takes_count (by decide)) fun _ => takes_error

theorem takes_readMapHead : Takes (· < 4294967296) readMapHead readMapHead := by
  refine takes_of_first rfl fun b => ?_
  have hlt := b.toNat_lt
  simp only [readMapHead]
  refine .ite (fun _ => takes_pure (by omega)) fun _ => ?_
  refine .ite (fun _ => takes_count (by decide)) fun _ => ?_
  exact .ite (fun _ => takes_count (by decide)) fun _ => takes_error

/-! ### Values -/

theorem fitsAll_of_forall_mem : ∀ {ss : List Stored}, (∀ s ∈ ss, s.Fits) → Stored.FitsAll ss
  | [], _ => trivial
  | _ :: _, h => ⟨h _ List.mem_cons_self, fitsAll_of_forall_mem fun s hs =>
      h s (List.mem_cons_of_mem _ hs)⟩

theorem takes_readNil (s : Stored) (hs : s.Fits) :
    Takes Stored.Fits (fun t => (readNil t).map fun rest => (s, rest))
      fun t => (readNil t).map fun rest => (s, rest) := by
  refine takes_of_first rfl fun b => ?_
  by_cases hb : b = 0xc0
  · simp only [readNil, if_pos hb]
    exact takes_pure hs
  · simp only [readNil, if_neg hb]
    exact takes_error

theorem takes_readPayload {read read' : Bytes → Except Failure (Stored × Bytes)}
    (h : Takes Stored.Fits read read') (kind : Int64) :
    Takes Stored.Fits (readPayload read kind) (readPayload read' kind) := by
  have hvector (read : Bytes → Except Failure (Stored × Bytes)) :
      readPayload read 6 = fun t => (readArrayHead t).bind fun r =>
        (readCounted read r.1 r.2).map fun q => (.vector q.1, q.2) := by
    funext t
    show readPayload read 6 t = _
    rw [readPayload, if_neg (by decide), if_neg (by decide), if_neg (by decide),
      if_neg (by decide), if_neg (by decide), if_pos rfl]
    cases readArrayHead t <;> rfl
  by_cases hkind : kind = 6
  · subst hkind
    rw [hvector, hvector]
    refine takes_readArrayHead.bind fun n hn => ?_
    refine (takes_counted h n).map (f := Stored.vector) ?_
    rintro ss ⟨rfl, hss⟩
    exact ⟨hn, fitsAll_of_forall_mem hss⟩
  · show Takes Stored.Fits (fun t => readPayload read kind t) fun t => readPayload read' kind t
    simp only [readPayload, if_neg hkind]
    refine .ite (fun _ => takes_readBool.map (f := Stored.bool) fun _ _ => trivial) fun h₁ => ?_
    refine .ite (fun _ => takes_readInt.map (f := Stored.integer) fun _ _ => trivial) fun h₃ => ?_
    refine .ite (fun _ => takes_readString.map (f := Stored.string) fun _ hs => hs) fun h₅ => ?_
    refine .ite (fun _ => takes_readString.map (f := Stored.keyword) fun _ hs => hs) fun h₄ => ?_
    refine .ite (fun _ => takes_readString.map (f := Stored.function) fun _ hs => hs) fun h₂ => ?_
    apply takes_readNil
    split_ifs with h₀
    · trivial
    · show kind.toInt < 0 ∨ 6 < kind.toInt
      have hne {n : Int64} (hn : kind ≠ n) : kind.toInt ≠ n.toInt :=
        fun h => hn (Int64.toInt_inj.1 h)
      have h₀ : kind.toInt ≠ 0 := hne h₀
      have h₁ : kind.toInt ≠ 1 := hne h₁
      have h₂ : kind.toInt ≠ 2 := hne h₂
      have h₃ : kind.toInt ≠ 3 := hne h₃
      have h₄ : kind.toInt ≠ 4 := hne h₄
      have h₅ : kind.toInt ≠ 5 := hne h₅
      have h₆ : kind.toInt ≠ 6 := hne hkind
      omega

/-- More levels of nesting allowed, and more bytes behind, change nothing. -/
theorem takes_readStored : ∀ {fuel fuel' : Nat}, fuel ≤ fuel' →
    Takes Stored.Fits (readStored fuel) (readStored fuel')
  | 0, _, _ => takes_error
  | fuel + 1, fuel' + 1, hle => by
    have heq (fuel : Nat) : readStored (fuel + 1) = fun t =>
        (readArrayHead t).bind fun r =>
          if r.1 ≠ 2 then .error (.fieldCount r.1)
          else (readInt r.2).bind fun q => readPayload (readStored fuel) q.1 q.2 := by
      funext t
      rw [readStored]
      cases readArrayHead t with
      | error e => rfl
      | ok r =>
        show (if r.1 ≠ 2 then _ else _) = if r.1 ≠ 2 then _ else _
        cases readInt r.2 <;> rfl
    rw [heq, heq]
    refine takes_readArrayHead.bind fun n _ => ?_
    simp only
    refine .ite (fun _ => takes_error) fun _ => ?_
    refine takes_readInt.bind fun kind _ => ?_
    exact takes_readPayload (takes_readStored (Nat.le_of_succ_le_succ hle)) kind

/-! ### Bindings -/

theorem takes_readEntry {fuel fuel' : Nat} (h : fuel ≤ fuel') :
    Takes Entry.Fits (readEntry fuel) (readEntry fuel') := by
  have heq (fuel : Nat) : readEntry fuel = fun t =>
      (readString t).bind fun r => (readStored fuel r.2).map fun q => (⟨r.1, q.1⟩, q.2) := by
    funext t
    rw [readEntry]
    cases readString t <;> rfl
  rw [heq, heq]
  refine takes_readString.bind fun name hname => ?_
  exact (takes_readStored h).map (f := Entry.mk name) fun _ hs => ⟨hname, hs⟩

/-- The bindings at the front of a text, and the bytes behind them. -/
def readFront (fuel : Nat) (t : Bytes) : Except Failure (List Entry × Bytes) :=
  (readMapHead t).bind fun r => readCounted (readEntry fuel) r.1 r.2

theorem takes_readFront {fuel fuel' : Nat} (h : fuel ≤ fuel') :
    Takes (fun es : List Entry => es.length < 4294967296 ∧ ∀ e ∈ es, e.Fits) (readFront fuel)
      (readFront fuel') := by
  refine takes_readMapHead.bind fun n hn => (takes_counted (takes_readEntry h) n).imp ?_
  rintro es ⟨rfl, hfits⟩
  exact ⟨hn, hfits⟩

theorem readEntries_eq (t : Bytes) :
    readEntries t = (readFront (t.length + 1) t).bind fun r =>
      if r.2.isEmpty then .ok r.1 else .error (.trailing r.2.length) := by
  unfold readEntries readFront
  cases readMapHead t with
  | error e => rfl
  | ok r =>
    show _ = (readCounted (readEntry (t.length + 1)) r.1 r.2).bind _
    simp only
    cases readCounted (readEntry (t.length + 1)) r.1 r.2 <;> rfl

theorem readEntries_ok_iff {t : Bytes} {es : List Entry} :
    readEntries t = .ok es ↔ readFront (t.length + 1) t = .ok (es, []) := by
  rw [readEntries_eq]
  cases readFront (t.length + 1) t with
  | error e => simp [Except.bind]
  | ok r =>
    obtain ⟨es', rest⟩ := r
    cases rest with
    | nil => simp [Except.bind]
    | cons b rest => simp [Except.bind]

/-- Bytes behind accepted bytes are left over. -/
theorem readEntries_append {t : Bytes} {es : List Entry} (h : readEntries t = .ok es)
    {more : Bytes} (hne : more ≠ []) :
    readEntries (t ++ more) = .error (.trailing more.length) := by
  have hle : t.length + 1 ≤ (t ++ more).length + 1 := by
    rw [List.length_append]
    omega
  have hfront := (takes_readFront hle (readEntries_ok_iff.1 h)).2 more
  have hempty : more.isEmpty = false := by simpa using hne
  rw [readEntries_eq, hfront, List.nil_append]
  simp [Except.bind, hempty]

/-- Bytes that are accepted are read as bindings that have a written form. -/
theorem fits_of_readEntries {t : Bytes} {es : List Entry} (h : readEntries t = .ok es) :
    es.length < 4294967296 ∧ ∀ e ∈ es, e.Fits :=
  (takes_readFront (Nat.le_refl _) (readEntries_ok_iff.1 h)).1

/-- The MessagePack form is self-delimiting and normalising.  A value in front of any bytes is read
back and leaves exactly these bytes, and bindings are read back from what is written for them.  No
accepted text is a proper part of the front of another, and what is read from an accepted text, in
whatever form it came, is written in a form that reads the same.  A count never exceeds the number
of bytes that are written behind it. -/
theorem codec_self_delimiting :
    (∀ s : Stored, s.Fits → ∀ (rest : Bytes) (fuel : Nat),
      (writeStored s [] ++ rest).length ≤ fuel →
      readStored fuel (writeStored s [] ++ rest) = .ok (s, rest)) ∧
    (∀ es : List Entry, es.length < 4294967296 → (∀ e ∈ es, e.Fits) →
      readEntries (writeEntries es) = .ok es) ∧
    (∀ (p : Bytes) (es : List Entry), readEntries p = .ok es →
      (∀ q, q <+: p → q ≠ p → ∃ e, readEntries q = .error e) ∧
      (∀ q, p <+: q → q ≠ p → ∃ e, readEntries q = .error e) ∧
      readEntries (writeEntries es) = .ok es) ∧
    (∀ (ss : List Stored) (rest : Bytes), ss.length ≤ (writeAll ss rest).length) ∧
    ∀ es : List Entry, es.length ≤ (writePairs es []).length := by
  refine ⟨?_, ?_, ?_, ?_, length_le_writePairs⟩
  · intro s hs rest fuel hfuel
    rw [← writeStored_eq_append] at hfuel ⊢
    exact readStored_writeStored s hs rest hfuel
  · intro es hlen hes
    exact readEntries_writeEntries hlen hes
  · intro p es hp
    refine ⟨?_, ?_, ?_⟩
    · rintro q ⟨more, rfl⟩ hne
      cases hq : readEntries q with
      | error e => exact ⟨e, rfl⟩
      | ok es' =>
        -- An accepted front would leave the rest of the text over.
        have hmore : more ≠ [] := by
          rintro rfl
          exact hne (List.append_nil q).symm
        rw [readEntries_append hq hmore] at hp
        cases hp
    · rintro q ⟨more, rfl⟩ hne
      have hmore : more ≠ [] := by
        rintro rfl
        exact hne (List.append_nil p)
      exact ⟨_, readEntries_append hp hmore⟩
    · obtain ⟨hlen, hfits⟩ := fits_of_readEntries hp
      exact readEntries_writeEntries hlen hfits
  · intro ss rest
    have := length_le_writeAll ss rest
    omega

/-- Bindings in longer forms than needed: the head of the map in five bytes, a string with a length
byte, an array head of three bytes, and integers in four and in two bytes. -/
theorem codec_self_delimiting_long_forms :
    let p : Bytes := [0xdf, 0x00, 0x00, 0x00, 0x01, 0xd9, 0x01, 0x61, 0xdc, 0x00, 0x02,
      0xd2, 0x00, 0x00, 0x00, 0x03, 0xcd, 0x00, 0x07]
    let e : Entry := ⟨utf8 "a", .integer 7⟩
    readEntries p = .ok [e] ∧
      (∀ q, q <+: p → q ≠ p → ∃ e, readEntries q = .error e) ∧
      (∀ q, p <+: q → q ≠ p → ∃ e, readEntries q = .error e) ∧
      writeEntries [e] = [0x81, 0xa1, 0x61, 0x92, 0x03, 0x07] ∧
      readEntries (writeEntries [e]) = .ok [e] ∧
      readStored 7 (writeStored e.value [] ++ [0xc1]) = .ok (e.value, [0xc1]) := by
  intro p e
  obtain ⟨hvalue, hentries, haccepted, -⟩ := codec_self_delimiting
  have hp : readEntries p = .ok [e] := rfl
  obtain ⟨hfront, hlonger, -⟩ := haccepted p [e] hp
  have he : e.Fits := ⟨by decide, trivial⟩
  refine ⟨hp, hfront, hlonger, by decide, ?_, ?_⟩
  · exact hentries [e] (by decide) (List.forall_mem_singleton.2 he)
  · exact hvalue e.value trivial [0xc1] 7 (by decide)

end Pack

end SpanLisp
