import SpanLisp.Proofs.ByteLexer
import Mathlib.Data.List.TakeWhile

/-!
# The tokens of a text

`Lexeme kind w` says that the bytes `w` can make up a token of a kind, and `Stops kind rest` that
the bytes `rest` do not go on with it.  Every token is a lexeme in front of bytes where it stops
(`lexeme_of_front`), and conversely such bytes are read as that token (`scan_append`).  The tokens
of a text are laid end to end and carry the bytes of their spans (`Token.Chained`,
`chained_tokens`).  Asked for one token after the other, the lexer gives these, and then the end or
the error again and again (`Lexer.answer_eq_expected`).
-/

namespace SpanLisp

open ByteLexer

/-! ### Lexemes -/

/-- The bytes can make up a token of the kind. -/
def Lexeme : Token.Kind → Bytes → Prop
  | .opening d, w => w = d.opening
  | .closing d, w => w = d.closing
  | .integer, w => w ≠ [] ∧ ∀ b ∈ w, Decimal.isDigit b = true
  | .string, w => ∃ body, w = quote :: body ++ [quote] ∧ quote ∉ body
  | .symbol, w => w ≠ [] ∧ (∀ b ∈ w.head?, Decimal.isDigit b = false) ∧ ∀ b ∈ w, isSymbolic b = true
  | .blank, w => w ≠ [] ∧ ∀ b ∈ w, ByteLexer.isBlank b = true

/-- The bytes do not go on with a token of the kind. -/
def Stops (kind : Token.Kind) (rest : Bytes) : Prop :=
  ∀ b ∈ rest.head?, match kind with
    | .integer => Decimal.isDigit b = false
    | .symbol => isSymbolic b = false
    | .blank => ByteLexer.isBlank b = false
    | _ => True

theorem stops_nil (kind : Token.Kind) : Stops kind [] := by
  intro b hb
  simp at hb

theorem lexeme_of_delimiter? {b : UInt8} {kind : Token.Kind} (h : delimiter? b = some kind) :
    Lexeme kind [b] ∧ ∀ rest, Stops kind rest := by
  unfold delimiter? at h
  split_ifs at h with h₁ h₂ h₃ h₄ h₅ h₆ <;> cases h
  · exact ⟨by rw [h₁]; rfl, fun _ _ _ => trivial⟩
  · exact ⟨by rw [h₂]; rfl, fun _ _ _ => trivial⟩
  · exact ⟨by rw [h₃]; rfl, fun _ _ _ => trivial⟩
  · exact ⟨by rw [h₄]; rfl, fun _ _ _ => trivial⟩
  · exact ⟨by rw [h₅]; rfl, fun _ _ _ => trivial⟩
  · exact ⟨by rw [h₆]; rfl, fun _ _ _ => trivial⟩

theorem head?_dropWhile {p : UInt8 → Bool} {bs : Bytes} :
    ∀ b ∈ (bs.dropWhile p).head?, p b = false := by
  intro b hb
  have := List.head?_dropWhile_not p bs
  rw [Option.mem_def] at hb
  rw [hb] at this
  exact this

theorem forall_mem_run {p : UInt8 → Bool} {b : UInt8} (hb : p b = true) (bs : Bytes) :
    ∀ c ∈ b :: bs.takeWhile p, p c = true := by
  intro c hc
  rcases List.mem_cons.1 hc with rfl | hc
  · exact hb
  · exact List.mem_takeWhile_imp hc

/-- What is taken off the front of a text is a lexeme, and what is left does not go on with it. -/
theorem lexeme_of_front {b : UInt8} {bs run rest : Bytes} {kind : Token.Kind}
    (h : front b bs = .token kind run rest) : Lexeme kind run ∧ Stops kind rest := by
  unfold front at h
  by_cases hq : b = quote
  · rw [if_pos hq] at h
    unfold stringFront at h
    split at h
    · cases h
    · cases h
      refine ⟨⟨_, rfl, fun hmem => ?_⟩, fun _ _ => trivial⟩
      simpa using List.mem_takeWhile_imp hmem
  rw [if_neg hq] at h
  cases hd : delimiter? b with
  | some kind' =>
    rw [hd] at h
    cases h
    exact ⟨(lexeme_of_delimiter? hd).1, (lexeme_of_delimiter? hd).2 _⟩
  | none =>
    rw [hd] at h
    simp only at h
    split_ifs at h with hdigit hblank hunused
    · cases h
      exact ⟨⟨List.cons_ne_nil _ _, forall_mem_run hdigit bs⟩, head?_dropWhile⟩
    · cases h
      exact ⟨⟨List.cons_ne_nil _ _, forall_mem_run hblank bs⟩, head?_dropWhile⟩
    · cases h
      have hsym : isSymbolic b = true := by
        rw [isSymbolic_iff hq hd (Bool.eq_false_iff.2 hblank), Bool.eq_false_iff.2 hunused]
        rfl
      refine ⟨⟨List.cons_ne_nil _ _, ?_, forall_mem_run hsym bs⟩, head?_dropWhile⟩
      rintro c ⟨⟩
      exact Bool.eq_false_iff.2 hdigit

/-! ### Reading a lexeme -/

theorem takeWhile_append_stop {p : UInt8 → Bool} {w rest : Bytes} (hw : ∀ b ∈ w, p b = true)
    (hr : ∀ b ∈ rest.head?, p b = false) :
    (w ++ rest).takeWhile p = w ∧ (w ++ rest).dropWhile p = rest := by
  rw [List.takeWhile_append_of_pos hw, List.dropWhile_append_of_pos hw]
  match rest with
  | [] => simp
  | c :: cs =>
    have hc : ¬ p c = true := Bool.eq_false_iff.1 (hr c rfl)
    rw [List.takeWhile_cons_of_neg hc, List.dropWhile_cons_of_neg hc, List.append_nil]
    exact ⟨rfl, rfl⟩

theorem runFront_append {kind : Token.Kind} {p : UInt8 → Bool} {b : UInt8} {w rest : Bytes}
    (hw : ∀ c ∈ b :: w, p c = true) (hr : ∀ c ∈ rest.head?, p c = false) :
    runFront kind p b (w ++ rest) = .token kind (b :: w) rest := by
  obtain ⟨h₁, h₂⟩ := takeWhile_append_stop (fun c hc => hw c (List.mem_cons_of_mem b hc)) hr
  unfold runFront
  rw [h₁, h₂]

theorem not_special_of_isDigit {b : UInt8} (h : Decimal.isDigit b = true) :
    b ≠ quote ∧ delimiter? b = none := by
  have hle : b.toNat ≤ 57 := by
    simp only [Decimal.isDigit, Bool.and_eq_true, decide_eq_true_eq] at h
    exact UInt8.le_iff_toNat_le.1 h.2
  have key : ∀ n < 128, Decimal.isDigit (UInt8.ofNat n) = true →
      UInt8.ofNat n ≠ quote ∧ delimiter? (UInt8.ofNat n) = none := by decide +kernel
  have := key b.toNat (by omega)
  rw [UInt8.ofNat_toNat] at this
  exact this h

theorem not_special_of_isBlank {b : UInt8} (h : ByteLexer.isBlank b = true) :
    b ≠ quote ∧ delimiter? b = none ∧ Decimal.isDigit b = false := by
  simp only [ByteLexer.isBlank, Bool.or_eq_true, decide_eq_true_eq] at h
  rcases h with (((h | h) | h) | h) | h <;> rw [h] <;> decide

theorem not_special_of_isSymbolic {b : UInt8} (h : isSymbolic b = true) :
    b ≠ quote ∧ delimiter? b = none ∧ ByteLexer.isBlank b = false ∧ isUnused b = false := by
  simp only [isSymbolic, Bool.and_eq_true, bne_iff_ne, Bool.not_eq_true', Option.isNone_iff_eq_none]
    at h
  exact ⟨h.1.1.1, h.1.2, h.2, h.1.1.2⟩

/-- A lexeme in front of bytes that do not go on with it is taken off the front. -/
theorem front_of_lexeme {kind : Token.Kind} {w rest : Bytes} (hw : Lexeme kind w)
    (hr : Stops kind rest) : ∃ b bs, w ++ rest = b :: bs ∧ front b bs = .token kind w rest := by
  match kind with
  | .opening d =>
    rw [hw]
    cases d
    · exact ⟨0x28, rest, rfl, rfl⟩
    · exact ⟨0x5b, rest, rfl, rfl⟩
    · exact ⟨0x7b, rest, rfl, rfl⟩
  | .closing d =>
    rw [hw]
    cases d
    · exact ⟨0x29, rest, rfl, rfl⟩
    · exact ⟨0x5d, rest, rfl, rfl⟩
    · exact ⟨0x7d, rest, rfl, rfl⟩
  | .integer =>
    obtain ⟨b, bs, rfl⟩ := List.exists_cons_of_ne_nil hw.1
    have hb := hw.2 b List.mem_cons_self
    obtain ⟨hq, hd⟩ := not_special_of_isDigit hb
    refine ⟨b, bs ++ rest, rfl, ?_⟩
    unfold front
    rw [if_neg hq, hd]
    simp only [if_pos hb]
    exact runFront_append hw.2 hr
  | .string =>
    obtain ⟨body, rfl, hbody⟩ := hw
    have hrun : (body ++ quote :: rest).takeWhile (· != quote) = body ∧
        (body ++ quote :: rest).dropWhile (· != quote) = quote :: rest :=
      takeWhile_append_stop (fun c hc => bne_iff_ne.2 fun h => hbody (h ▸ hc))
        (by rintro c ⟨⟩; rfl)
    refine ⟨quote, body ++ quote :: rest, by simp, ?_⟩
    unfold front stringFront
    rw [if_pos rfl, hrun.1, hrun.2]
  | .symbol =>
    obtain ⟨hne, hfirst, hall⟩ := hw
    obtain ⟨b, bs, rfl⟩ := List.exists_cons_of_ne_nil hne
    obtain ⟨hq, hd, hblank, hunused⟩ := not_special_of_isSymbolic (hall b List.mem_cons_self)
    have hdigit : ¬ Decimal.isDigit b = true := Bool.eq_false_iff.1 (hfirst b rfl)
    refine ⟨b, bs ++ rest, rfl, ?_⟩
    unfold front
    rw [if_neg hq, hd]
    simp only [if_neg hdigit, hblank, hunused, Bool.false_eq_true, if_false]
    exact runFront_append hall hr
  | .blank =>
    obtain ⟨b, bs, rfl⟩ := List.exists_cons_of_ne_nil hw.1
    have hb := hw.2 b List.mem_cons_self
    obtain ⟨hq, hd, hdigit⟩ := not_special_of_isBlank hb
    refine ⟨b, bs ++ rest, rfl, ?_⟩
    unfold front
    rw [if_neg hq, hd]
    simp only [if_pos hb, hdigit, Bool.false_eq_true, if_false]
    exact runFront_append hw.2 hr

/-- A lexeme is read as one token. -/
theorem scan_append {kind : Token.Kind} {w rest : Bytes} (hw : Lexeme kind w) (hr : Stops kind rest)
    (pos : Nat) :
    scan pos (w ++ rest) =
      (⟨kind, ⟨pos, pos + w.length⟩, w⟩ :: (scan (pos + w.length) rest).1,
        (scan (pos + w.length) rest).2) := by
  obtain ⟨b, bs, happ, hfront⟩ := front_of_lexeme hw hr
  rw [happ, scan_token hfront]

/-! ### Tokens end to end -/

/-- The token covers bytes of the text, at least one, and carries these bytes. -/
structure Token.Fits (source : Bytes) (t : Token) : Prop where
  /-- It covers at least one byte. -/
  nonempty : t.span.lo < t.span.hi
  /-- It ends within the text. -/
  bounded : t.span.hi ≤ source.length
  /-- It carries the bytes of its span. -/
  text_eq : t.span.of source = t.text
  /-- These bytes make up a token of its kind. -/
  lexeme : Lexeme t.kind t.text

/-- The tokens fit the text and are laid end to end from one offset to another. -/
def Token.Chained (source : Bytes) : Nat → List Token → Nat → Prop
  | start, [], stop => start = stop
  | start, t :: ts, stop => t.span.lo = start ∧ t.Fits source ∧ Chained source t.span.hi ts stop

theorem Token.Chained.forall_fits {source : Bytes} :
    ∀ {ts : List Token} {start stop : Nat}, Chained source start ts stop → ∀ t ∈ ts, t.Fits source
  | [], _, _, _, _, ht => absurd ht (by simp)
  | _ :: _, _, _, h, t, ht => by
    rcases List.mem_cons.1 ht with rfl | ht
    · exact h.2.1
    · exact h.2.2.forall_fits t ht

/-- The tokens fit the text and follow one another. -/
structure Token.Laid (source : Bytes) (ts : List Token) : Prop where
  /-- Each of them fits. -/
  fits : ∀ t ∈ ts, t.Fits source
  /-- Each of them ends before the later ones begin. -/
  ordered : ts.Pairwise fun t u => t.span.hi ≤ u.span.lo

theorem Token.Laid.sublist {source : Bytes} {ts us : List Token} (h : Laid source us)
    (hsub : ts.Sublist us) : Laid source ts :=
  ⟨fun t ht => h.fits t (hsub.subset ht), h.ordered.sublist hsub⟩

theorem Token.Chained.le_lo {source : Bytes} :
    ∀ {ts : List Token} {start stop : Nat}, Chained source start ts stop →
      ∀ t ∈ ts, start ≤ t.span.lo
  | [], _, _, _, _, ht => absurd ht (by simp)
  | u :: _, _, _, h, t, ht => by
    rcases List.mem_cons.1 ht with rfl | ht
    · exact Nat.le_of_eq h.1.symm
    · have := h.2.2.le_lo t ht
      have := h.2.1.nonempty
      have := h.1
      omega

theorem Token.Chained.laid {source : Bytes} :
    ∀ {ts : List Token} {start stop : Nat}, Chained source start ts stop → Laid source ts
  | [], _, _, _ => ⟨by simp, List.Pairwise.nil⟩
  | u :: ts, _, _, h => by
    refine ⟨h.forall_fits, List.pairwise_cons.2 ⟨h.2.2.le_lo, h.2.2.laid.ordered⟩⟩

theorem of_span_run {source run rest : Bytes} {pos : Nat} (h : source.drop pos = run ++ rest) :
    Span.of ⟨pos, pos + run.length⟩ source = run := by
  unfold Span.of
  rw [h, Nat.add_sub_cancel_left, List.take_left']
  rfl

theorem length_of_drop_eq {source run rest : Bytes} {pos : Nat} (h : source.drop pos = run ++ rest)
    (hne : run ≠ []) : pos + run.length ≤ source.length := by
  have := congrArg List.length h
  rw [List.length_drop, List.length_append] at this
  have := List.length_pos_iff.2 hne
  omega

/-- The tokens of a text from `pos` on are laid end to end, up to the end of the text or to the
place of the error. -/
theorem scan_chained (source : Bytes) (pos : Nat) (t : Bytes) (h : source.drop pos = t)
    (hpos : pos ≤ source.length) :
    match (scan pos t).2 with
    | none => Token.Chained source pos (scan pos t).1 source.length
    | some e => e.span.lo < e.span.hi ∧ e.span.hi ≤ source.length ∧
        Token.Chained source pos (scan pos t).1 e.span.lo := by
  induction pos, t using scan_induction with
  | nil pos =>
    rw [scan_nil]
    exact Nat.le_antisymm hpos (List.drop_eq_nil_iff.1 h)
  | failed pos b bs kind run hf =>
    obtain ⟨rest, hrun, hne⟩ := eq_append_of_front_failed hf
    rw [hrun] at h
    rw [scan_failed hf]
    exact ⟨Nat.lt_add_of_pos_right (List.length_pos_iff.2 hne), length_of_drop_eq h hne, rfl⟩
  | token pos b bs kind run rest hf ih =>
    obtain ⟨happ, hne⟩ := eq_append_of_front hf
    rw [happ] at h
    have hdrop : source.drop (pos + run.length) = rest := by
      rw [← List.drop_drop, h, List.drop_left']
      rfl
    have hle := length_of_drop_eq h hne
    have hfits : Token.Fits source ⟨kind, ⟨pos, pos + run.length⟩, run⟩ :=
      ⟨Nat.lt_add_of_pos_right (List.length_pos_iff.2 hne), hle, of_span_run h,
        (lexeme_of_front hf).1⟩
    have hrest := ih hdrop hle
    rw [scan_token hf]
    simp only
    cases he : (scan (pos + run.length) rest).2 with
    | none =>
      rw [he] at hrest
      exact ⟨rfl, hfits, hrest⟩
    | some e =>
      rw [he] at hrest
      exact ⟨hrest.1, hrest.2.1, rfl, hfits, hrest.2.2⟩

theorem chained_tokens (text : Bytes) :
    match (tokens text).2 with
    | none => Token.Chained text 0 (tokens text).1 text.length
    | some e => e.span.lo < e.span.hi ∧ e.span.hi ≤ text.length ∧
        Token.Chained text 0 (tokens text).1 e.span.lo := by
  rw [tokens_eq_scan]
  exact scan_chained text 0 text rfl (Nat.zero_le _)

theorem laid_tokens (text : Bytes) : Token.Laid text (tokens text).1 := by
  have h := chained_tokens text
  cases he : (tokens text).2 with
  | none =>
    rw [he] at h
    exact h.laid
  | some e =>
    rw [he] at h
    exact h.2.2.laid

theorem within_of_tokens_error {text : Bytes} {e : SyntaxError} (he : (tokens text).2 = some e) :
    e.span.Within text.length := by
  have h := chained_tokens text
  rw [he] at h
  exact ⟨Nat.le_of_lt h.1, h.2.1⟩

/-! ### One token after the other -/

namespace Lexer

/-- What the lexer hands out after it has been asked `n` times before. -/
def answer (lx : Lexer) : Nat → Scan
  | 0 => lx.next.1
  | n + 1 => lx.next.2.answer n

/-- What to expect as the answer after `n` others: a token as long as there are any, then always
the end or the error. -/
def expected (ts : List Token) (failure : Option SyntaxError) (n : Nat) : Scan :=
  match ts[n]?, failure with
  | some t, _ => .token t
  | none, some e => .failed e
  | none, none => .finished

theorem eq_of_next_finished {lx lx' : Lexer} (h : lx.next = (.finished, lx')) : lx' = lx := by
  unfold next at h
  split at h
  · cases h
  · cases h
    rfl
  · unfold emitString emitRun emit refuse at h
    repeat' split at h
    all_goals cases h

/-- An error is kept. -/
theorem next_again_of_failed {lx lx' : Lexer} {e : SyntaxError} (h : lx.next = (.failed e, lx')) :
    lx'.next = (.failed e, lx') := by
  have hkept (lx : Lexer) (hfailure : lx.failure = some e) : lx.next = (.failed e, lx) := by
    unfold next
    rw [hfailure]
  refine hkept lx' ?_
  unfold next at h
  split at h
  · rename_i hfailure
    cases h
    exact hfailure
  · cases h
  · unfold emitString emitRun emit refuse at h
    repeat' split at h
    all_goals cases h
    all_goals rfl

theorem answer_of_fixed {lx : Lexer} {found : Scan} (h : lx.next = (found, lx)) :
    ∀ n, lx.answer n = found
  | 0 => congrArg Prod.fst h
  | n + 1 => by
    rw [answer, h]
    exact answer_of_fixed h n

theorem answer_eq_expected (lx : Lexer) (n : Nat) :
    lx.answer n = expected lx.drain.1 lx.drain.2.1 n := by
  induction lx using Lexer.drain.induct generalizing n with
  | case1 lx t lx' h ih =>
    rw [drain_of_token h]
    cases n with
    | zero => exact congrArg Prod.fst h
    | succ n =>
      rw [answer, h]
      exact ih n
  | case2 lx lx' h =>
    obtain rfl := eq_of_next_finished h
    have hdrain : lx'.drain = ([], none, lx') := by
      rw [drain]
      split <;> rename_i hnext <;> rw [h] at hnext <;> cases hnext
      rfl
    rw [answer_of_fixed h, hdrain]
    rfl
  | case3 lx e lx' h =>
    obtain ⟨htokens, herror⟩ := drain_of_failed (congrArg Prod.fst h)
    rw [htokens, herror]
    cases n with
    | zero => exact congrArg Prod.fst h
    | succ n =>
      rw [answer, h]
      exact answer_of_fixed (next_again_of_failed h) n

end Lexer

/-- The tokens and the error of a text are those that the lexer of bytes finds.  The tokens are laid
end to end, none of them empty, from the start of the text to its end or to the place of the error.
The lexer hands them out one after the other, and then the end or the error again and again. -/
theorem tokens_tile_and_agree (text : Bytes) :
    tokens text = scan 0 text ∧
      Token.Chained text 0 (tokens text).1
        (match (tokens text).2 with
        | none => text.length
        | some e => e.span.lo) ∧
      ∀ n, (Lexer.ofText text).answer n = Lexer.expected (tokens text).1 (tokens text).2 n := by
  refine ⟨tokens_eq_scan text, ?_, Lexer.answer_eq_expected (Lexer.ofText text)⟩
  have h := chained_tokens text
  cases he : (tokens text).2 with
  | none =>
    rw [he] at h
    exact h
  | some e =>
    rw [he] at h
    exact h.2.2

end SpanLisp
