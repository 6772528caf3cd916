import SpanLisp.Proofs.Grammar
import SpanLisp.Proofs.TwoReadings

/-!
# Errors at the earliest place

The parser reads from left to right and stops at the first token that no text could go on with.  A
text can be cut between two tokens: what stands before the cut is read the same with other bytes
behind it, provided these end the last token too (`exists_cut`).  So the parser comes to the place
of an error in the same state whatever follows (`Reaches`), and there are only three causes of an
error (`Cause`).  Before the error, closing what is open completes the text (`Reaches.completed`);
after it, nothing helps (`Reaches.refused`).
-/

namespace SpanLisp

open ByteLexer

/-! ### Cutting between tokens -/

/-- Tokens that end in front of the first bytes end in front of the second too. -/
def EndsLike (rest r : Bytes) : Prop := ∀ kind, Stops kind rest → Stops kind r

theorem endsLike_append {x : Bytes} (hx : x ≠ []) (r r' : Bytes) : EndsLike (x ++ r) (x ++ r') := by
  obtain ⟨b, bs, rfl⟩ := List.exists_cons_of_ne_nil hx
  exact fun _ h => h

theorem Stops.append {kind : Token.Kind} {x rest r : Bytes} (h : Stops kind (x ++ rest))
    (hr : EndsLike rest r) : Stops kind (x ++ r) := by
  cases x with
  | nil => exact hr kind h
  | cons b bs => exact h

/-- A text is empty, or starts with a token, or with something that is none. -/
theorem scan_cases (pos : Nat) (t : Bytes) :
    (t = [] ∧ scan pos t = ([], none)) ∨
      (∃ kind w rest, t = w ++ rest ∧ Lexeme kind w ∧ Stops kind rest ∧
        scan pos t = (⟨kind, ⟨pos, pos + w.length⟩, w⟩ :: (scan (pos + w.length) rest).1,
          (scan (pos + w.length) rest).2)) ∨
      ∃ b bs kind w, t = b :: bs ∧ front b bs = .failed kind w ∧
        scan pos t = ([], some ⟨kind, ⟨pos, pos + w.length⟩⟩) := by
  cases t with
  | nil => exact .inl ⟨rfl, scan_nil pos⟩
  | cons b bs =>
    cases hf : front b bs with
    | token kind w rest =>
      obtain ⟨hlexeme, hstops⟩ := lexeme_of_front hf
      exact .inr (.inl
        ⟨kind, w, rest, (eq_append_of_front hf).1, hlexeme, hstops, scan_token hf pos⟩)
    | failed kind w => exact .inr (.inr ⟨b, bs, kind, w, rfl, hf, scan_failed hf pos⟩)

theorem scan_eq_cons {pos : Nat} {t : Bytes} {tok : Token} {ts : List Token}
    {failure : Option SyntaxError} (h : scan pos t = (tok :: ts, failure)) :
    ∃ w rest, t = w ++ rest ∧ tok = ⟨tok.kind, ⟨pos, pos + w.length⟩, w⟩ ∧ Lexeme tok.kind w ∧
      Stops tok.kind rest ∧ scan (pos + w.length) rest = (ts, failure) := by
  rcases scan_cases pos t with ⟨-, hscan⟩ | ⟨kind, w, rest, htext, hlexeme, hstops, hscan⟩ |
    ⟨b, bs, kind, w, -, -, hscan⟩
  · cases hscan.symm.trans h
  · cases hscan.symm.trans h
    exact ⟨w, rest, htext, rfl, hlexeme, hstops, rfl⟩
  · cases hscan.symm.trans h

theorem scan_eq_failed {pos : Nat} {t : Bytes} {e : SyntaxError}
    (h : scan pos t = ([], some e)) :
    ∃ b bs w, t = b :: bs ∧ front b bs = .failed e.kind w ∧ e.span = ⟨pos, pos + w.length⟩ := by
  rcases scan_cases pos t with ⟨-, hscan⟩ | ⟨kind, w, rest, -, -, -, hscan⟩ |
    ⟨b, bs, kind, w, htext, hfront, hscan⟩
  · cases hscan.symm.trans h
  · cases hscan.symm.trans h
  · cases hscan.symm.trans h
    exact ⟨b, bs, w, htext, hfront, rfl⟩

theorem scan_eq_nil {pos : Nat} {t : Bytes} (h : scan pos t = ([], none)) : t = [] := by
  rcases scan_cases pos t with ⟨htext, -⟩ | ⟨kind, w, rest, -, -, -, hscan⟩ |
    ⟨b, bs, kind, w, -, -, hscan⟩
  · exact htext
  · cases hscan.symm.trans h
  · cases hscan.symm.trans h

/-- Wherever one token ends and the next begins, the text can be cut: the tokens before the cut are
the same with any other bytes behind it that end the last of them. -/
theorem exists_cut :
    ∀ {us vs : List Token} {pos : Nat} {t : Bytes} {failure : Option SyntaxError},
      scan pos t = (us ++ vs, failure) →
      ∃ w rest, t = w ++ rest ∧ scan (pos + w.length) rest = (vs, failure) ∧
        ∀ r, EndsLike rest r → scan pos (w ++ r) =
          (us ++ (scan (pos + w.length) r).1, (scan (pos + w.length) r).2)
  | [], vs, pos, t, failure, h => ⟨[], t, rfl, h, fun _ _ => rfl⟩
  | u :: us, vs, pos, t, failure, h => by
    obtain ⟨w, rest, rfl, hu, hlexeme, hstops, hscan⟩ := scan_eq_cons h
    obtain ⟨w', rest', rfl, hscan', hcut⟩ := exists_cut hscan
    refine ⟨w ++ w', rest', (List.append_assoc _ _ _).symm, ?_, fun r hr => ?_⟩
    · rwa [List.length_append, ← Nat.add_assoc]
    · rw [List.append_assoc, scan_append hlexeme (hstops.append hr), hcut r hr, ← hu,
        List.length_append, Nat.add_assoc]
      rfl

/-! ### Longer tokens -/

theorem Lexeme.ne_nil {kind : Token.Kind} {w : Bytes} (hw : Lexeme kind w) : w ≠ [] := by
  obtain ⟨b, bs, hcons, -⟩ := front_of_lexeme hw (stops_nil kind)
  rw [List.append_nil] at hcons
  rw [hcons]
  exact List.cons_ne_nil b bs

/-- With more bytes behind it, a token can only become longer. -/
theorem exists_longest {kind : Token.Kind} {w : Bytes} (hw : Lexeme kind w) (more : Bytes) :
    ∃ extra rest, more = extra ++ rest ∧ Lexeme kind (w ++ extra) ∧ Stops kind rest := by
  have hsplit (p : UInt8 → Bool) : more = more.takeWhile p ++ more.dropWhile p :=
    List.takeWhile_append_dropWhile.symm
  have hmem (p : UInt8 → Bool) : ∀ b ∈ more.takeWhile p, p b = true :=
    fun b hb => List.mem_takeWhile_imp hb
  match kind with
  | .opening d | .closing d | .string =>
    exact ⟨[], more, rfl, by rwa [List.append_nil], fun _ _ => trivial⟩
  | .integer =>
    have hall := List.forall_mem_append.2 ⟨hw.2, hmem Decimal.isDigit⟩
    exact ⟨_, _, hsplit Decimal.isDigit, ⟨List.append_ne_nil_of_left_ne_nil hw.1 _, hall⟩,
      head?_dropWhile⟩
  | .blank =>
    have hall := List.forall_mem_append.2 ⟨hw.2, hmem ByteLexer.isBlank⟩
    exact ⟨_, _, hsplit ByteLexer.isBlank, ⟨List.append_ne_nil_of_left_ne_nil hw.1 _, hall⟩,
      head?_dropWhile⟩
  | .symbol =>
    obtain ⟨hne, hfirst, hw⟩ := hw
    have hall := List.forall_mem_append.2 ⟨hw, hmem isSymbolic⟩
    refine ⟨_, _, hsplit isSymbolic, ⟨List.append_ne_nil_of_left_ne_nil hne _, ?_, hall⟩,
      head?_dropWhile⟩
    rwa [List.head?_append_of_ne_nil _ hne]

theorem Decimal.toNat_le_append (w extra : Bytes) : toNat w ≤ toNat (w ++ extra) := by
  induction extra generalizing w with
  | nil => rw [List.append_nil]
  | cons b extra ih =>
    have hdigit := toNat_append_digit w b
    have hrest := ih (w ++ [b])
    rw [List.append_assoc, List.singleton_append] at hrest
    omega

/-- A byte that starts no token never does; any other error is an unterminated string. -/
theorem front_failed_cases {b : UInt8} {bs w : Bytes} {kind : SyntaxError.Kind}
    (h : front b bs = .failed kind w) :
    (kind = .unknownStart ∧ w = [b] ∧ ∀ bs', front b bs' = .failed .unknownStart [b]) ∨
      kind = .unterminatedString ∧ b = quote ∧ w = quote :: bs := by
  unfold front at h
  by_cases hq : b = quote
  · rw [if_pos hq] at h
    unfold stringFront at h
    split at h
    · cases h
      exact .inr ⟨rfl, hq, rfl⟩
    · cases h
  rw [if_neg hq] at h
  cases hd : delimiter? b with
  | some kind' =>
    rw [hd] at h
    cases h
  | none =>
    rw [hd] at h
    simp only at h
    split_ifs at h with hdigit hblank hunused
    · cases h
    · cases h
    · cases h
      refine .inl ⟨rfl, rfl, fun bs' => ?_⟩
      unfold front
      rw [if_neg hq, hd]
      simp only [if_neg hdigit, if_neg hblank, if_pos hunused]
    · cases h

theorem front_quote (bs : Bytes) :
    (∃ w rest, front quote bs = .token .string w rest) ∨
      front quote bs = .failed .unterminatedString (quote :: bs) := by
  unfold front stringFront
  rw [if_pos rfl]
  split
  · exact .inr rfl
  · exact .inl ⟨_, _, rfl⟩

namespace Parser

variable {mode : Mode} {limit : Nat}

/-! ### Closing what is open -/

/-- The bytes that close the delimiters, innermost first. -/
def closers (ds : List Delim) : Bytes := ds.flatMap Delim.closing

theorem closers_cons (d : Delim) (ds : List Delim) :
    closers (d :: ds) = d.closing ++ closers ds := rfl

theorem mem_closers {ds : List Delim} (h : ∀ d ∈ ds, d ≠ .brace) :
    ∀ b ∈ closers ds, b = 0x29 ∨ b = 0x5d := by
  intro b hb
  obtain ⟨d, hd, hb⟩ := List.mem_flatMap.1 hb
  cases d with
  | paren => exact .inl (List.mem_singleton.1 hb)
  | bracket => exact .inr (List.mem_singleton.1 hb)
  | brace => exact absurd rfl (h _ hd)

/-- A closing delimiter is one byte, and no run of bytes goes on with it. -/
theorem exists_closing_byte (d : Delim) :
    ∃ b, d.closing = [b] ∧ Decimal.isDigit b = false ∧ isSymbolic b = false ∧
      ByteLexer.isBlank b = false := by
  cases d with
  | paren => exact ⟨0x29, rfl, by decide, by decide, by decide⟩
  | bracket => exact ⟨0x5d, rfl, by decide, by decide, by decide⟩
  | brace => exact ⟨0x7d, rfl, by decide, by decide, by decide⟩

/-- Every token ends in front of a closing delimiter. -/
theorem stops_closers (kind : Token.Kind) : ∀ ds : List Delim, Stops kind (closers ds)
  | [] => stops_nil kind
  | d :: ds => by
    obtain ⟨c, hclosing, hdigit, hsymbolic, hblank⟩ := exists_closing_byte d
    intro b hb
    rw [closers_cons, hclosing] at hb
    obtain rfl : c = b := Option.some.inj hb
    cases kind with
    | integer => exact hdigit
    | symbol => exact hsymbolic
    | blank => exact hblank
    | opening | closing | string => trivial

/-- The closing delimiters of the open sequences are read to their end and leave none open. -/
theorem steps_closers :
    ∀ {ds : List Delim} {st : State}, st.delims = ds → ∀ pos,
      (scan pos (closers ds)).2 = none ∧
        ∃ st', Steps mode limit st (scan pos (closers ds)).1 st' ∧ st'.pending = []
  | [], st, hds, pos => ⟨rfl, st, rfl, List.map_eq_nil_iff.1 hds⟩
  | d :: ds, st, hds, pos => by
    obtain ⟨p, ps, hp, rfl, hps⟩ := List.map_eq_cons_iff.1 hds
    have hlexeme : Lexeme (.closing p.delim) p.delim.closing := rfl
    have hover : st.lineIsOver mode = false := by simp [State.lineIsOver, hp]
    rw [closers_cons, scan_append hlexeme fun _ _ => trivial]
    let close : Token := ⟨.closing p.delim, ⟨pos, pos + p.delim.closing.length⟩, p.delim.closing⟩
    have hread : Reads mode limit st close _ := .closing p ps hp rfl hover
    have hrest := (State.delims_add { st with pending := ps }
      (sequence p.delim ⟨p.lo, close.span.hi⟩ p.elems.reverse)).trans hps
    obtain ⟨hnone, st', hsteps, hpending⟩ := steps_closers hrest close.span.hi
    exact ⟨hnone, st', ⟨_, hread, hsteps⟩, hpending⟩

/-! ### The place of an error -/

/-- The parser comes to the state after the bytes `w`, whatever follows them in place of `rest`, as
long as it ends the last token. -/
structure Reaches (mode : Mode) (limit : Nat) (names : Interner) (w rest : Bytes) (st : State) :
    Prop where
  /-- No brace is open. -/
  noBrace : ∀ d ∈ st.delims, d ≠ .brace
  /-- The rest of the text is read from the state. -/
  parse_eq : ∀ r, EndsLike rest r → parse mode limit (w ++ r) names =
    run mode limit (w ++ r).length (scan w.length r).2 (scan w.length r).1 st

/-- Why the parser stops in a state at the offset `lo` with `rest` to be read. -/
inductive Cause (mode : Mode) (limit : Nat) (st : State) (lo : Nat) (rest : Bytes) :
    SyntaxError → Prop
  /-- It refuses the next token. -/
  | refused (kind : Token.Kind) (w rest' : Bytes) (e : SyntaxError) (hrest : rest = w ++ rest')
      (hw : Lexeme kind w) (hstep : step mode limit st ⟨kind, ⟨lo, lo + w.length⟩, w⟩ = .error e) :
      Cause mode limit st lo rest e
  /-- There is no next token. -/
  | failed (kind : SyntaxError.Kind) (b : UInt8) (bs w : Bytes) (hrest : rest = b :: bs)
      (hfront : front b bs = .failed kind w) :
      Cause mode limit st lo rest
        ⟨if st.lineIsOver mode then .expectedEndOfLine else kind, ⟨lo, lo + w.length⟩⟩
  /-- The text is at its end. -/
  | ended (hrest : rest = []) : Cause mode limit st lo rest ⟨.unclosed, .point lo⟩

theorem Cause.lo_eq {st : State} {lo : Nat} {rest : Bytes} {e : SyntaxError}
    (h : Cause mode limit st lo rest e) : e.span.lo = lo := by
  cases h with
  | refused kind w rest' e hrest hw hstep => rw [span_of_step_error hstep]
  | failed => rfl
  | ended => rfl

theorem reaches_of_steps {text w rest : Bytes} {names : Interner} {us vs : List Token}
    {failure : Option SyntaxError} {st : State}
    (htokens : tokens text = (us ++ vs, failure))
    (hcut : ∀ r, EndsLike rest r → scan 0 (w ++ r) =
      (us ++ (scan w.length r).1, (scan w.length r).2))
    (hsteps : Steps mode limit { names := names } us st) :
    Reaches mode limit names w rest st where
  noBrace := by
    have hfits : ∀ t ∈ us, t.Fits text := fun t ht =>
      (laid_tokens text).fits t (by rw [htokens]; exact List.mem_append_left _ ht)
    intro d hd
    obtain ⟨p, hp, rfl⟩ := List.mem_map.1 hd
    exact (hsteps.sound (sound_start text names) hfits).noBrace p hp
  parse_eq r hr := by
    unfold parse
    rw [tokens_eq_scan, hcut r hr]
    exact run_append hsteps

/-- Every error has a place that the parser reaches, and a cause there. -/
theorem exists_cause {text : Bytes} {names : Interner} {e : SyntaxError}
    (h : (parse mode limit text names).1 = .error e) :
    ∃ w rest st, text = w ++ rest ∧ Reaches mode limit names w rest st ∧
      Cause mode limit st w.length rest e := by
  unfold parse at h
  rcases run_cases mode limit text.length (tokens text).2 (tokens text).1 { names := names } with
    ⟨st, hsteps, hrun⟩ | ⟨us, t, vs, st, e', htokens, hsteps, hstep, hrun⟩
  · -- All tokens are read, so the error is that of the lexer or of an open sequence.
    simp only [hrun] at h
    have hscan : tokens text = ((tokens text).1 ++ [], (tokens text).2) := by
      rw [List.append_nil]
    obtain ⟨w, rest, htext, hrest, hcut⟩ := exists_cut ((tokens_eq_scan text).symm.trans hscan)
    rw [Nat.zero_add] at hrest hcut
    refine ⟨w, rest, st, htext, reaches_of_steps hscan hcut hsteps, ?_⟩
    cases hfailure : (tokens text).2 with
    | some failure =>
      rw [hfailure] at h hrest
      obtain ⟨b, bs, x, rfl, hfront, hspan⟩ := scan_eq_failed hrest
      have he : e = ⟨if st.lineIsOver mode then .expectedEndOfLine else failure.kind,
          ⟨w.length, w.length + x.length⟩⟩ := by
        simp only [finish, Except.error.injEq] at h
        rw [← h, ← hspan]
        split_ifs <;> rfl
      rw [he]
      exact .failed failure.kind b bs x rfl hfront
    | none =>
      rw [hfailure] at h hrest
      obtain rfl := scan_eq_nil hrest
      simp only [finish] at h
      split_ifs at h
      cases h
      rw [htext, List.append_nil]
      exact .ended rfl
  · simp only [hrun] at h
    cases h
    have hscan : tokens text = (us ++ t :: vs, (tokens text).2) := by rw [← htokens]
    obtain ⟨w, rest, htext, hrest, hcut⟩ := exists_cut ((tokens_eq_scan text).symm.trans hscan)
    rw [Nat.zero_add] at hrest hcut
    obtain ⟨x, rest', hsplit, ht, hlexeme, -, -⟩ := scan_eq_cons hrest
    rw [ht] at hstep
    exact ⟨w, rest, st, htext, reaches_of_steps hscan hcut hsteps,
      .refused t.kind x rest' e hsplit hlexeme hstep⟩

/-- The text before the place is completed by closing what is open there. -/
theorem Reaches.completed {names : Interner} {w rest : Bytes} {st : State}
    (h : Reaches mode limit names w rest st) :
    ∃ es, (parse mode limit (w ++ closers st.delims) names).1 = .ok es := by
  obtain ⟨hnone, st', hsteps, hpending⟩ := @steps_closers mode limit _ st rfl w.length
  refine ⟨st'.complete.reverse, ?_⟩
  rw [h.parse_eq _ fun kind _ => stops_closers kind _, run_of_steps hsteps, hnone]
  simp [finish, hpending]

/-- A token that is refused is refused for the same reason when it is longer: of all reasons only
the size of an integer looks at its bytes. -/
theorem step_error_append {st : State} {kind : Token.Kind} {lo hi hi' : Nat} {w : Bytes}
    {e : SyntaxError} (h : step mode limit st ⟨kind, ⟨lo, hi⟩, w⟩ = .error e) (extra : Bytes) :
    step mode limit st ⟨kind, ⟨lo, hi'⟩, w ++ extra⟩ = .error ⟨e.kind, ⟨lo, hi'⟩⟩ := by
  by_cases hblank : kind = .blank
  · rw [step_blank hblank] at h
    cases h
  by_cases hover : st.lineIsOver mode = true
  · rw [step_over hblank hover] at h ⊢
    cases h
    rfl
  unfold step at h ⊢
  rw [if_neg hblank, if_neg hover] at h ⊢
  cases kind with
  | blank => cases h
  | string => cases h
  | symbol => cases h
  | integer =>
    have hle := Decimal.toNat_le_append w extra
    unfold integer at h ⊢
    by_cases hfits : Decimal.toNat w ≤ maxInteger
    · simp only [if_pos hfits] at h
      cases h
    · simp only [if_neg hfits] at h
      cases h
      simp only [if_neg (show ¬ Decimal.toNat (w ++ extra) ≤ maxInteger by omega)]
      rfl
  | opening d =>
    simp only at h ⊢
    split_ifs at h ⊢ <;> cases h <;> rfl
  | closing d =>
    cases hp : st.pending with
    | nil =>
      rw [hp] at h
      cases h
      rfl
    | cons p ps =>
      rw [hp] at h
      simp only at h ⊢
      split_ifs at h ⊢
      cases h
      rfl

/-- A line that is over is not continued by a string, closed or not. -/
theorem run_quote_of_over {st : State} (hover : st.lineIsOver mode = true) (size pos : Nat)
    (bs : Bytes) :
    ∃ e, (run mode limit size (scan pos (quote :: bs)).2 (scan pos (quote :: bs)).1 st).1 =
      .error e ∧ e.kind = .expectedEndOfLine ∧ e.span.lo = pos := by
  rcases front_quote bs with ⟨w, rest, hfront⟩ | hfront
  · rw [scan_token hfront, run, step_over (by simp) hover]
    exact ⟨_, rfl, rfl, rfl⟩
  · rw [scan_failed hfront, run]
    simp only [finish, if_pos hover]
    exact ⟨_, rfl, rfl, rfl⟩

/-- Unless the error is that the text ends too early, no other continuation helps. -/
theorem Reaches.refused {names : Interner} {w rest : Bytes} {st : State} {e : SyntaxError}
    (h : Reaches mode limit names w rest st) (hcause : Cause mode limit st w.length rest e)
    (hunclosed : e.kind ≠ .unclosed) (hstring : e.kind ≠ .unterminatedString) (more : Bytes) :
    ∃ e', (parse mode limit ((w ++ rest).take e.span.hi ++ more) names).1 = .error e' ∧
      e'.kind = e.kind ∧ e'.span.lo = w.length := by
  have htake (x rest' : Bytes) : (w ++ (x ++ rest')).take (w.length + x.length) = w ++ x := by
    rw [← List.append_assoc, ← List.length_append, List.take_left]
  cases hcause with
  | ended => exact absurd rfl hunclosed
  | refused kind x rest' e hrest hx hstep =>
    subst hrest
    rw [span_of_step_error hstep, htake, List.append_assoc,
      h.parse_eq _ (endsLike_append hx.ne_nil _ _)]
    obtain ⟨extra, r, rfl, hlonger, hstops⟩ := exists_longest hx more
    rw [← List.append_assoc x, scan_append hlonger hstops, run, step_error_append hstep]
    exact ⟨_, rfl, rfl, rfl⟩
  | failed kind b bs x hrest hfront =>
    subst hrest
    rcases front_failed_cases hfront with ⟨rfl, rfl, hfront'⟩ | ⟨rfl, rfl, rfl⟩
    · -- The byte starts no token, whatever follows.
      have hbyte : (w ++ b :: bs).take (w.length + [b].length) = w ++ [b] := htake [b] bs
      have hends : EndsLike (b :: bs) ([b] ++ more) :=
        endsLike_append (List.cons_ne_nil b []) bs more
      rw [hbyte, List.append_assoc, h.parse_eq _ hends, List.singleton_append,
        scan_failed (hfront' more), run]
      simp only [finish]
      split_ifs <;> exact ⟨_, rfl, rfl, rfl⟩
    · -- The string may end in the longer text, but the line was over before it.
      have hover : st.lineIsOver mode = true := by
        by_contra hover
        exact hstring (if_neg hover)
      have hends := endsLike_append (List.cons_ne_nil quote bs) [] more
      rw [List.append_nil] at hends
      have hwhole := htake (quote :: bs) []
      rw [List.append_nil] at hwhole
      rw [hwhole, List.append_assoc, h.parse_eq _ hends, if_pos hover]
      exact run_quote_of_over hover _ _ _

end Parser

/-! ### Both readers -/

/-- An error of a reader stands at the earliest place: what is before it can be completed, and what
ends with it cannot. -/
structure Earliest {α : Type} (read : Bytes → Interner → Except SyntaxError α × Interner)
    (text : Bytes) (e : SyntaxError) : Prop where
  /-- The text before the error is accepted with some closing delimiters behind it. -/
  completable : ∃ closing : Bytes, (∀ b ∈ closing, b = 0x29 ∨ b = 0x5d) ∧
    ∀ names, ∃ a, (read (text.take e.span.lo ++ closing) names).1 = .ok a
  /-- Every text that begins with the error is refused for the same reason at the same place, unless
  the error is that the text ends too early. -/
  final : e.kind ≠ .unclosed → e.kind ≠ .unterminatedString →
    ∀ longer names, text.take e.span.hi <+: longer →
      ∃ e', (read longer names).1 = .error e' ∧ e'.kind = e.kind ∧ e'.span.lo = e.span.lo

theorem Parser.earliest_parse {mode : Mode} {limit : Nat} {text : Bytes} {names : Interner}
    {e : SyntaxError} (h : (parse mode limit text names).1 = .error e) :
    Earliest (parse mode limit) text e := by
  obtain ⟨w, rest, st, rfl, hreaches, hcause⟩ := exists_cause h
  refine ⟨⟨closers st.delims, mem_closers hreaches.noBrace, fun names' => ?_⟩, ?_⟩
  · rw [hcause.lo_eq, List.take_left]
    obtain ⟨es, hes⟩ := hreaches.completed
    exact (same_parse mode limit _ names names').ok_left hes
  · rintro hunclosed hstring _ names' ⟨more, rfl⟩
    obtain ⟨e', he', hkind, hlo⟩ := hreaches.refused hcause hunclosed hstring more
    exact ⟨e', (same_parse mode limit _ names names').error_left he', hkind,
      hlo.trans hcause.lo_eq.symm⟩

/-- Taking the only expression out of a line changes no error. -/
theorem Earliest.parseLine {limit : Nat} {text : Bytes} {e : SyntaxError}
    (h : Earliest (Parser.parse .line limit) text e) : Earliest (parseLine limit) text e := by
  refine ⟨?_, fun hunclosed hstring longer names hlonger => ?_⟩
  · obtain ⟨closing, hclosing, hok⟩ := h.completable
    refine ⟨closing, hclosing, fun names => ?_⟩
    obtain ⟨es, hes⟩ := hok names
    exact ⟨_, congrArg Prod.fst (parseLine_of_parse (Prod.ext hes rfl))⟩
  · obtain ⟨e', he', hsame⟩ := h.final hunclosed hstring longer names hlonger
    refine ⟨e', ?_, hsame⟩
    unfold SpanLisp.parseLine
    simp only [he']
    rfl

/-- Both readers report every error at the earliest place. -/
theorem syntaxErrors_earliest (limit : Nat) (text : Bytes) (names : Interner) (e : SyntaxError) :
    ((parseLine limit text names).1 = .error e → Earliest (parseLine limit) text e) ∧
      ((parseAll limit text names).1 = .error e → Earliest (parseAll limit) text e) := by
  refine ⟨fun h => ?_, Parser.earliest_parse⟩
  have hparse := parse_of_parseLine_error (Prod.ext h rfl)
  exact (Parser.earliest_parse (congrArg Prod.fst hparse)).parseLine

/-- A string that never ends behind a complete line, and a bracket closed by a parenthesis. -/
theorem syntaxErrors_earliest_string_close :
    (parseLine 1 (utf8 "7 \"a") {}).1 = .error ⟨.expectedEndOfLine, ⟨2, 4⟩⟩ ∧
      Earliest (parseLine 1) (utf8 "7 \"a") ⟨.expectedEndOfLine, ⟨2, 4⟩⟩ ∧
      (parseAll 2 (utf8 "(a [1 2) b") {}).1 = .error ⟨.incorrectClose, ⟨7, 8⟩⟩ ∧
      Earliest (parseAll 2) (utf8 "(a [1 2) b") ⟨.incorrectClose, ⟨7, 8⟩⟩ := by
  have hline : (parseLine 1 (utf8 "7 \"a") {}).1 = .error ⟨.expectedEndOfLine, ⟨2, 4⟩⟩ := by
    unfold parseLine Parser.parse
    rw [tokens_eq_scan]
    rfl
  have hscript : (parseAll 2 (utf8 "(a [1 2) b") {}).1 = .error ⟨.incorrectClose, ⟨7, 8⟩⟩ := by
    unfold parseAll Parser.parse
    rw [tokens_eq_scan]
    rfl
  exact ⟨hline, (syntaxErrors_earliest 1 _ {} _).1 hline, hscript,
    (syntaxErrors_earliest 2 _ {} _).2 hscript⟩

end SpanLisp
