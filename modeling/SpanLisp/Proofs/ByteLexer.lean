import SpanLisp.Token.Lexer
import SpanLisp.Proofs.ByteRuns

/-!
# Lexing byte by byte

`ByteLexer.scan` is a lexer that never decodes UTF-8: it tells bytes apart by a handful of ASCII
values and takes maximal runs of bytes.  It finds the same tokens and the same error as `tokens`
(`tokens_eq_scan`).
-/

namespace SpanLisp

namespace ByteLexer

/-! ### Classes of bytes -/

/-- The delimiter token that a byte is, if any. -/
def delimiter? (b : UInt8) : Option Token.Kind :=
  if b = 0x28 then some (.opening .paren)
  else if b = 0x29 then some (.closing .paren)
  else if b = 0x5b then some (.opening .bracket)
  else if b = 0x5d then some (.closing .bracket)
  else if b = 0x7b then some (.opening .brace)
  else if b = 0x7d then some (.closing .brace)
  else none

/-- The quote. -/
def quote : UInt8 := 0x22

/-- Space, tab, comma, line feed and carriage return. -/
def isBlank (b : UInt8) : Bool := b = 0x20 || b = 0x09 || b = 0x2c || b = 0x0a || b = 0x0d

/-- The semicolon, the apostrophe and the backslash, which start no token. -/
def isUnused (b : UInt8) : Bool := b = 0x3b || b = 0x27 || b = 0x5c

/-- The bytes that a name can hold. -/
def isSymbolic (b : UInt8) : Bool :=
  b != quote && !isUnused b && (delimiter? b).isNone && !isBlank b

theorem forall_ascii {P : UInt8 → Prop} (h : ∀ n < 128, P (UInt8.ofNat n)) :
    ∀ b : UInt8, b < 0x80 → P b := by
  intro b hb
  have := h b.toNat (UInt8.lt_iff_toNat_lt.1 hb)
  rwa [UInt8.ofNat_toNat] at this

theorem ne_of_high {c d : Char} (hc : 0x80 ≤ c.toNat) (hd : d.toNat < 0x80) : c ≠ d := by
  rintro rfl
  omega

theorem byte_ne_of_high {b c : UInt8} (hb : ¬ b < 0x80) (hc : c < 0x80) : b ≠ c := by
  rintro rfl
  exact hb hc

theorem agree_delimiter? : Utf8.Agree Token.delimiter? delimiter? where
  ascii := forall_ascii (by decide +kernel)
  high c b hc hb := by
    have hchar (d : Char) (hd : d.toNat < 0x80) : c ≠ d := ne_of_high hc hd
    have hbyte (d : UInt8) (hd : d < 0x80) : b ≠ d := byte_ne_of_high hb hd
    unfold Token.delimiter? delimiter?
    simp (disch := decide) only [hchar, hbyte, if_false]

theorem agree_isBlank : Utf8.Agree Token.isBlank isBlank where
  ascii := forall_ascii (by decide +kernel)
  high c b hc hb := by
    have hchar (d : Char) (hd : d.toNat < 0x80) : c ≠ d := ne_of_high hc hd
    have hbyte (d : UInt8) (hd : d < 0x80) : b ≠ d := byte_ne_of_high hb hd
    unfold Token.isBlank isBlank
    simp (disch := decide) only [hchar, hbyte, decide_false, Bool.or_self]

theorem agree_isDigit : Utf8.Agree Token.isDigit Decimal.isDigit where
  ascii := forall_ascii (by decide +kernel)
  high c b hc hb := by
    have hchar : ¬ c ≤ '9' := fun h => absurd (Nat.le_trans hc h) (by decide)
    have hbyte : ¬ b ≤ 57 := fun h => hb (UInt8.lt_of_le_of_lt h (by decide))
    simp only [Token.isDigit, Decimal.isDigit, hchar, hbyte, decide_false, Bool.and_false]

theorem agree_isSymbolic : Utf8.Agree Token.isSymbolic isSymbolic where
  ascii := forall_ascii (by decide +kernel)
  high c b hc hb := by
    have hchar (d : Char) (hd : d.toNat < 0x80) : c ≠ d := ne_of_high hc hd
    have hbyte (d : UInt8) (hd : d < 0x80) : b ≠ d := byte_ne_of_high hb hd
    unfold Token.isSymbolic isSymbolic
    rw [agree_delimiter?.high c b hc hb, agree_isBlank.high c b hc hb]
    congr 2
    unfold Token.isReserved isUnused quote
    simp (disch := decide) only [hchar, hbyte, decide_false, Bool.or_self, bne, Bool.not_false]
    simp [hbyte]

theorem agree_quote : Utf8.Agree (· != '"') (· != quote) where
  ascii := forall_ascii (by decide +kernel)
  high c b hc hb := by
    have hchar : c ≠ '"' := ne_of_high hc (by decide)
    have hbyte : b ≠ quote := byte_ne_of_high hb (by decide)
    rw [bne_iff_ne.2 hchar, bne_iff_ne.2 hbyte]

/-! ### The lexer -/

/-- What stands at the front of a text. -/
inductive Front where
  /-- A token with its bytes, and the bytes after it. -/
  | token (kind : Token.Kind) (run rest : Bytes)
  /-- A mistake on the bytes `run`. -/
  | failed (kind : SyntaxError.Kind) (run : Bytes)
  deriving DecidableEq

/-- The longest run of bytes that satisfy `p` behind `b`. -/
def runFront (kind : Token.Kind) (p : UInt8 → Bool) (b : UInt8) (bs : Bytes) : Front :=
  .token kind (b :: bs.takeWhile p) (bs.dropWhile p)

/-- The string whose opening quote stands in front of `bs`. -/
def stringFront (bs : Bytes) : Front :=
  match bs.dropWhile (· != quote) with
  | [] => .failed .unterminatedString (quote :: bs)
  | _ :: rest => .token .string (quote :: bs.takeWhile (· != quote) ++ [quote]) rest

/-- What stands at the front of the text `b :: bs`. -/
def front (b : UInt8) (bs : Bytes) : Front :=
  if b = quote then stringFront bs
  else match delimiter? b with
  | some kind => .token kind [b] bs
  | none =>
    if Decimal.isDigit b then runFront .integer Decimal.isDigit b bs
    else if isBlank b then runFront .blank isBlank b bs
    else if isUnused b then .failed .unknownStart [b]
    else runFront .symbol isSymbolic b bs

theorem eq_quote_of_dropWhile {bs rest : Bytes} {q : UInt8}
    (h : bs.dropWhile (· != quote) = q :: rest) : q = quote := by
  have hne : bs.dropWhile (· != quote) ≠ [] := by rw [h]; exact List.cons_ne_nil _ _
  have := List.head_dropWhile_not (· != quote) hne
  simpa [h] using this

/-- A token takes its bytes off the front of the text, and at least one. -/
theorem eq_append_of_front {b : UInt8} {bs run rest : Bytes} {kind : Token.Kind}
    (h : front b bs = .token kind run rest) : b :: bs = run ++ rest ∧ run ≠ [] := by
  have hrun (kind' : Token.Kind) (p : UInt8 → Bool)
      (h : runFront kind' p b bs = .token kind run rest) : b :: bs = run ++ rest ∧ run ≠ [] := by
    simp only [runFront, Front.token.injEq] at h
    obtain ⟨-, rfl, rfl⟩ := h
    exact ⟨by rw [List.cons_append, List.takeWhile_append_dropWhile], List.cons_ne_nil _ _⟩
  unfold front at h
  split at h
  · rename_i hb
    unfold stringFront at h
    split at h
    · cases h
    · rename_i q rest' hq
      cases h
      obtain rfl := eq_quote_of_dropWhile hq
      refine ⟨?_, List.cons_ne_nil _ _⟩
      rw [hb, List.append_assoc, List.cons_append, List.singleton_append, ← hq,
        List.takeWhile_append_dropWhile]
  · split at h
    · cases h
      exact ⟨rfl, List.cons_ne_nil _ _⟩
    · split_ifs at h
      · exact hrun _ _ h
      · exact hrun _ _ h
      · exact hrun _ _ h

theorem length_le_of_front {b : UInt8} {bs run rest : Bytes} {kind : Token.Kind}
    (h : front b bs = .token kind run rest) : rest.length ≤ bs.length := by
  obtain ⟨happ, hne⟩ := eq_append_of_front h
  have hlen := congrArg List.length happ
  have hpos := List.length_pos_iff.2 hne
  rw [List.length_cons, List.length_append] at hlen
  omega

/-- A mistake covers bytes at the front of the text, and at least one. -/
theorem eq_append_of_front_failed {b : UInt8} {bs run : Bytes} {kind : SyntaxError.Kind}
    (h : front b bs = .failed kind run) : ∃ rest, b :: bs = run ++ rest ∧ run ≠ [] := by
  unfold front at h
  split at h
  · rename_i hb
    unfold stringFront at h
    split at h
    · cases h
      exact ⟨[], by rw [hb, List.append_nil], List.cons_ne_nil _ _⟩
    · cases h
  · split at h
    · cases h
    · split_ifs at h
      · cases h
      · cases h
      · cases h
        exact ⟨bs, rfl, List.cons_ne_nil _ _⟩
      · cases h

/-- The tokens of at most `fuel` bytes from offset `pos` on. -/
def scanWithin : (fuel : Nat) → Nat → Bytes → List Token × Option SyntaxError
  | fuel + 1, pos, b :: bs =>
    match front b bs with
    | .token kind run rest =>
      let r := scanWithin fuel (pos + run.length) rest
      (⟨kind, ⟨pos, pos + run.length⟩, run⟩ :: r.1, r.2)
    | .failed kind run => ([], some ⟨kind, ⟨pos, pos + run.length⟩⟩)
  | _, _, _ => ([], none)

/-- The tokens of the bytes from offset `pos` on, up to their end or to the first error. -/
def scan (pos : Nat) (bytes : Bytes) : List Token × Option SyntaxError :=
  scanWithin bytes.length pos bytes

/-- More fuel than there are bytes makes no difference. -/
theorem scanWithin_eq_scan :
    ∀ {fuel : Nat} {bytes : Bytes}, bytes.length ≤ fuel → ∀ pos,
      scanWithin fuel pos bytes = scan pos bytes
  | 0, [], _, _ | _ + 1, [], _, _ => rfl
  | fuel + 1, b :: bs, hfuel, pos => by
    have hbs : bs.length ≤ fuel := Nat.le_of_succ_le_succ hfuel
    show scanWithin (fuel + 1) pos (b :: bs) = scanWithin (bs.length + 1) pos (b :: bs)
    rw [scanWithin, scanWithin]
    cases hf : front b bs with
    | failed kind run => rfl
    | token kind run rest =>
      have hrest := length_le_of_front hf
      simp only
      rw [scanWithin_eq_scan (Nat.le_trans hrest hbs), scanWithin_eq_scan hrest]

theorem scan_nil (pos : Nat) : scan pos [] = ([], none) := rfl

theorem scan_token {b : UInt8} {bs run rest : Bytes} {kind : Token.Kind}
    (h : front b bs = .token kind run rest) (pos : Nat) :
    scan pos (b :: bs) =
      (⟨kind, ⟨pos, pos + run.length⟩, run⟩ :: (scan (pos + run.length) rest).1,
        (scan (pos + run.length) rest).2) := by
  show scanWithin (bs.length + 1) pos (b :: bs) = _
  rw [scanWithin, h]
  simp only
  rw [scanWithin_eq_scan (length_le_of_front h)]

theorem scan_failed {b : UInt8} {bs run : Bytes} {kind : SyntaxError.Kind}
    (h : front b bs = .failed kind run) (pos : Nat) :
    scan pos (b :: bs) = ([], some ⟨kind, ⟨pos, pos + run.length⟩⟩) := by
  show scanWithin (bs.length + 1) pos (b :: bs) = _
  rw [scanWithin, h]

/-- Induction along the tokens of the bytes from an offset on. -/
@[elab_as_elim]
theorem scan_induction {motive : Nat → Bytes → Prop} (nil : ∀ pos, motive pos [])
    (failed : ∀ pos b bs kind run, front b bs = .failed kind run → motive pos (b :: bs))
    (token : ∀ pos b bs kind run rest, front b bs = .token kind run rest →
      motive (pos + run.length) rest → motive pos (b :: bs))
    (pos : Nat) (t : Bytes) : motive pos t := by
  -- By the length of the text: a token takes at least one byte off its front.
  induction hn : t.length using Nat.strongRecOn generalizing pos t with
  | ind n ih =>
    match t with
    | [] => exact nil pos
    | b :: bs =>
      cases hf : front b bs with
      | failed kind run => exact failed pos b bs kind run hf
      | token kind run rest =>
        have hlt : rest.length < n := by
          rw [← hn]
          exact Nat.lt_succ_of_le (length_le_of_front hf)
        exact token pos b bs kind run rest hf (ih rest.length hlt _ rest rfl)

/-! ### Agreement with the lexer of characters -/

theorem lt_of_delimiter? {b : UInt8} {kind : Token.Kind} (h : delimiter? b = some kind) :
    b < 0x80 := by
  unfold delimiter? at h
  split_ifs at h with h₁ h₂ h₃ h₄ h₅ h₆
  · rw [h₁]; decide
  · rw [h₂]; decide
  · rw [h₃]; decide
  · rw [h₄]; decide
  · rw [h₅]; decide
  · rw [h₆]; decide

theorem lt_of_isUnused {b : UInt8} (h : isUnused b = true) : b < 0x80 := by
  simp only [isUnused, Bool.or_eq_true, decide_eq_true_eq] at h
  rcases h with (h | h) | h
  · rw [h]; decide
  · rw [h]; decide
  · rw [h]; decide

theorem isSymbolic_iff {b : UInt8} (hq : b ≠ quote) (hd : delimiter? b = none)
    (hb : isBlank b = false) : isSymbolic b = !isUnused b := by
  simp [isSymbolic, hq, hd, hb]

/-- The position at offset `pos` in front of the bytes `t`. -/
def lexerAt (pos : Nat) (t : Bytes) : Lexer := { rest := Utf8.runes t, pos := pos }

/-- The first character of the text `b :: bs`. -/
def firstRune (b : UInt8) (bs : Bytes) : Rune :=
  ⟨(Utf8.decode b bs).1, b :: bs.take (Utf8.decode b bs).2⟩

/-- The characters after the first of the text `b :: bs`. -/
def laterRunes (b : UInt8) (bs : Bytes) : List Rune := Utf8.runes (bs.drop (Utf8.decode b bs).2)

/-- The lexer of characters chooses by the first byte. -/
theorem next_cons (pos : Nat) (b : UInt8) (bs : Bytes) :
    (lexerAt pos (b :: bs)).next =
      if b = quote then (lexerAt pos (b :: bs)).emitString (firstRune b bs) (laterRunes b bs)
      else match delimiter? b with
      | some kind => (lexerAt pos (b :: bs)).emit kind [firstRune b bs] (laterRunes b bs)
      | none =>
        if Decimal.isDigit b then
          (lexerAt pos (b :: bs)).emitRun .integer Token.isDigit (firstRune b bs) (laterRunes b bs)
        else if isSymbolic b then
          (lexerAt pos (b :: bs)).emitRun .symbol Token.isSymbolic (firstRune b bs)
            (laterRunes b bs)
        else if isBlank b then
          (lexerAt pos (b :: bs)).emitRun .blank Token.isBlank (firstRune b bs) (laterRunes b bs)
        else (lexerAt pos (b :: bs)).refuse .unknownStart [firstRune b bs] (laterRunes b bs) := by
  have hquote : (Utf8.decode b bs).1 = '"' ↔ b = quote := by
    have := agree_quote.first b bs
    rw [Bool.eq_iff_iff, bne_iff_ne, bne_iff_ne] at this
    exact Decidable.not_iff_not.1 this
  unfold Lexer.next
  have hrest : (lexerAt pos (b :: bs)).rest = firstRune b bs :: laterRunes b bs :=
    Utf8.runes_cons b bs
  rw [hrest]
  cases hkind : delimiter? b <;>
    simp only [lexerAt, firstRune, hquote, agree_delimiter?.first, agree_isDigit.first,
      agree_isSymbolic.first, agree_isBlank.first, hkind]

theorem firstRune_of_lt {b : UInt8} (h : b < 0x80) (bs : Bytes) :
    firstRune b bs = ⟨Char.ofNat b.toNat, [b]⟩ ∧ laterRunes b bs = Utf8.runes bs := by
  unfold firstRune laterRunes
  rw [Utf8.decode_of_lt h]
  exact ⟨rfl, rfl⟩

theorem emitRun_eq {p : Char → Bool} {q : UInt8 → Bool} (h : Utf8.Agree p q) {b : UInt8}
    (hq : q b = true) (kind : Token.Kind) (pos : Nat) (bs t : Bytes) :
    (lexerAt pos t).emitRun kind p (firstRune b bs) (laterRunes b bs) =
      (.token ⟨kind, ⟨pos, pos + (b :: bs.takeWhile q).length⟩, b :: bs.takeWhile q⟩,
        lexerAt (pos + (b :: bs.takeWhile q).length) (bs.dropWhile q)) := by
  have hrun := h.run (b :: bs)
  have hp : p (firstRune b bs).char = true := (h.first b bs).trans hq
  have hr : Utf8.runes (b :: bs) = firstRune b bs :: laterRunes b bs := Utf8.runes_cons b bs
  rw [hr, List.takeWhile_cons_of_pos (by exact hp), List.dropWhile_cons_of_pos (by exact hp),
    List.takeWhile_cons_of_pos hq, List.dropWhile_cons_of_pos hq] at hrun
  unfold Lexer.emitRun Lexer.emit Lexer.spell lexerAt
  rw [hrun.1, hrun.2]

theorem emitString_token {bs rest : Bytes} {q : UInt8} (h : bs.dropWhile (· != quote) = q :: rest)
    (pos : Nat) (t : Bytes) :
    (lexerAt pos t).emitString ⟨'"', [quote]⟩ (Utf8.runes bs) =
      (.token ⟨.string, ⟨pos, pos + (quote :: bs.takeWhile (· != quote) ++ [quote]).length⟩,
          quote :: bs.takeWhile (· != quote) ++ [quote]⟩,
        lexerAt (pos + (quote :: bs.takeWhile (· != quote) ++ [quote]).length) rest) := by
  have hrun := agree_quote.run bs
  obtain rfl := eq_quote_of_dropWhile h
  unfold Lexer.emitString
  rw [hrun.2, h, Utf8.runes_cons_of_lt (by decide)]
  unfold Lexer.emit Lexer.spell lexerAt
  simp only [List.flatMap_append, List.flatMap_cons, List.flatMap_nil, hrun.1, List.append_nil]
  rfl

theorem emitString_failed {bs : Bytes} (h : bs.dropWhile (· != quote) = []) (pos : Nat)
    (t : Bytes) :
    ((lexerAt pos t).emitString ⟨'"', [quote]⟩ (Utf8.runes bs)).1 =
      .failed ⟨.unterminatedString, ⟨pos, pos + (quote :: bs).length⟩⟩ := by
  have hrun := agree_quote.run bs
  have hall : bs.takeWhile (· != quote) = bs := by
    have := List.takeWhile_append_dropWhile (p := (· != quote)) (l := bs)
    rwa [h, List.append_nil] at this
  unfold Lexer.emitString
  rw [hrun.2, h, Utf8.runes_nil]
  unfold Lexer.refuse Lexer.spell
  simp only [List.flatMap_cons, hrun.1, hall]
  rfl

/-- The next token of the lexer of characters is the one at the front of the bytes. -/
theorem next_of_token {b : UInt8} {bs run rest : Bytes} {kind : Token.Kind}
    (h : front b bs = .token kind run rest) (pos : Nat) :
    (lexerAt pos (b :: bs)).next =
      (.token ⟨kind, ⟨pos, pos + run.length⟩, run⟩, lexerAt (pos + run.length) rest) := by
  rw [next_cons]
  unfold front at h
  by_cases hq : b = quote
  · subst hq
    rw [if_pos rfl] at h ⊢
    rw [(firstRune_of_lt (by decide) bs).1, (firstRune_of_lt (by decide) bs).2]
    unfold stringFront at h
    split at h
    · cases h
    · rename_i q' rest' hdrop
      cases h
      exact emitString_token hdrop pos _
  rw [if_neg hq] at h ⊢
  cases hd : delimiter? b with
  | some kind' =>
    rw [hd] at h
    cases h
    obtain ⟨h₁, h₂⟩ := firstRune_of_lt (lt_of_delimiter? hd) bs
    rw [h₁, h₂]
    rfl
  | none =>
    rw [hd] at h
    simp only at h ⊢
    split_ifs at h with hdigit hblank hunused
    · cases h
      rw [if_pos hdigit]
      exact emitRun_eq agree_isDigit hdigit _ _ _ _
    · cases h
      have hsym : ¬ isSymbolic b = true := by simp [isSymbolic, hblank]
      rw [if_neg hdigit, if_neg hsym, if_pos hblank]
      exact emitRun_eq agree_isBlank hblank _ _ _ _
    · cases h
      have hsym : isSymbolic b = true := by
        rw [isSymbolic_iff hq hd (Bool.eq_false_iff.2 hblank), Bool.eq_false_iff.2 hunused]
        rfl
      rw [if_neg hdigit, if_pos hsym]
      exact emitRun_eq agree_isSymbolic hsym _ _ _ _

theorem next_of_failed {b : UInt8} {bs run : Bytes} {kind : SyntaxError.Kind}
    (h : front b bs = .failed kind run) (pos : Nat) :
    (lexerAt pos (b :: bs)).next.1 = .failed ⟨kind, ⟨pos, pos + run.length⟩⟩ := by
  rw [next_cons]
  unfold front at h
  by_cases hq : b = quote
  · subst hq
    rw [if_pos rfl] at h ⊢
    rw [(firstRune_of_lt (by decide) bs).1, (firstRune_of_lt (by decide) bs).2]
    unfold stringFront at h
    split at h
    · rename_i hdrop
      cases h
      exact emitString_failed hdrop pos _
    · cases h
  rw [if_neg hq] at h ⊢
  cases hd : delimiter? b with
  | some kind' =>
    rw [hd] at h
    cases h
  | none =>
    rw [hd] at h
    simp only at h ⊢
    split_ifs at h with hdigit hblank hunused
    · cases h
    · cases h
    · cases h
      have hsym : ¬ isSymbolic b = true := by simp [isSymbolic, hunused]
      rw [if_neg hdigit, if_neg hsym, if_neg hblank,
        (firstRune_of_lt (lt_of_isUnused hunused) bs).1]
      rfl
    · cases h

theorem drain_of_token {lx lx' : Lexer} {t : Token} (h : lx.next = (.token t, lx')) :
    lx.drain = (t :: lx'.drain.1, lx'.drain.2) := by
  rw [Lexer.drain]
  split <;> rename_i hnext <;> rw [h] at hnext <;> cases hnext
  rfl

theorem drain_of_failed {lx : Lexer} {e : SyntaxError} (h : lx.next.1 = .failed e) :
    lx.drain.1 = [] ∧ lx.drain.2.1 = some e := by
  rw [Lexer.drain]
  split <;> rename_i hnext <;> rw [hnext] at h <;> cases h
  exact ⟨rfl, rfl⟩

theorem drain_eq_scan (pos : Nat) (t : Bytes) :
    ((lexerAt pos t).drain.1, (lexerAt pos t).drain.2.1) = scan pos t := by
  induction pos, t using scan_induction with
  | nil pos =>
    rw [scan_nil, Lexer.drain]
    rfl
  | failed pos b bs kind run hf =>
    obtain ⟨htokens, herror⟩ := drain_of_failed (next_of_failed hf pos)
    rw [scan_failed hf, htokens, herror]
  | token pos b bs kind run rest hf ih =>
    rw [scan_token hf, ← ih, drain_of_token (next_of_token hf pos)]

/-- Decoding UTF-8 makes no difference to the tokens of a text. -/
theorem tokens_eq_scan (text : Bytes) : tokens text = scan 0 text :=
  drain_eq_scan 0 text

end ByteLexer

end SpanLisp
