import Mathlib.Data.List.Find
import SpanLisp.Proofs.EarliestErrors
import SpanLisp.Proofs.Reprint
import SpanLisp.Proofs.Sessions

/-!
# A line is a script of one expression

Up to the end of its first expression a line is read as a script (`Parser.steps_line_iff`); what
comes behind it, blanks left out, is refused (`Parser.run_over`).  So both readers accept the same
texts of at most one expression, and evaluating such a text as a line or as a script is the same.
`Begins` says that a text begins with a complete expression, and `nextSpan?` finds what follows it.
-/

namespace SpanLisp

open ByteLexer

namespace Parser

variable {limit : Nat} {st st' : State} {t : Token}

/-! ### One token -/

theorem step_line_eq (hover : st.lineIsOver .line = false) (t : Token) :
    step .line limit st t = step .script limit st t := by
  unfold step
  rw [hover, lineIsOver_script]

theorem Reads.script (h : Reads .line limit st t st') : Reads .script limit st t st' := by
  have hover := lineIsOver_script st
  cases h with
  | blank hk => exact .blank hk
  | integer hk _ hfits => exact .integer hk hover hfits
  | string hk _ => exact .string hk hover
  | word hk _ => exact .word hk hover
  | opening d hk _ hd hlimit => exact .opening d hk hover hd hlimit
  | closing p ps hp hk _ => exact .closing p ps hp hk hover

theorem span_wordAt (head : Bool) (span : Span) (text : Bytes) (names : Interner) :
    (wordAt head span text names).1.span = span := by
  unfold wordAt
  split
  · rfl
  · unfold word
    split_ifs
    · rfl
    · rfl
    · rfl
    · split <;> rfl

theorem span_sequence (d : Delim) (span : Span) (xs : List Expr) :
    (sequence d span xs).span = span := by
  unfold sequence
  split_ifs <;> rfl

/-- A token is blank, is an expression of its own, opens a sequence, or closes one. -/
theorem Reads.effect {mode : Mode} (h : Reads mode limit st t st') :
    (t.kind = .blank ∧ st' = st) ∨
      (∃ names e, st' = { st with names := names }.add e ∧ e.span = t.span) ∨
      (∃ p, st' = { st with pending := p :: st.pending }) ∨
      ∃ p ps e, st.pending = p :: ps ∧ st' = { st with pending := ps }.add e ∧
        e.span = ⟨p.lo, t.span.hi⟩ := by
  cases h with
  | blank hk => exact .inl ⟨hk, rfl⟩
  | integer hk hover hfits => exact .inr (.inl ⟨_, _, rfl, rfl⟩)
  | string hk hover => exact .inr (.inl ⟨_, _, rfl, rfl⟩)
  | word hk hover => exact .inr (.inl ⟨_, _, rfl, span_wordAt _ _ _ _⟩)
  | opening d hk hover hd hlimit => exact .inr (.inr (.inl ⟨_, rfl⟩))
  | closing p ps hp hk hover => exact .inr (.inr (.inr ⟨p, ps, _, hp, rfl, span_sequence _ _ _⟩))

/-- How much has been read: two for every complete expression, one for what is open behind them. -/
def State.progress (st : State) : Nat :=
  2 * st.complete.length + if st.pending.isEmpty then 0 else 1

theorem State.single_iff : st.Single ↔ st.progress ≤ 2 := by
  obtain ⟨pending, complete, names⟩ := st
  unfold State.Single State.progress
  match complete, pending with
  | [], [] => simp
  | [], p :: ps => simp
  | [e], [] => simp
  | [e], p :: ps => simp
  | e :: e' :: es, pending =>
    simp only [List.length_cons]
    constructor
    · rintro (h | ⟨-, x, hx⟩)
      · cases h
      · cases hx
    · intro h
      omega

theorem State.progress_add (st : State) (e : Expr) :
    (st.add e).progress = if st.pending.isEmpty then st.progress + 2 else st.progress := by
  unfold State.add State.progress
  cases st.pending with
  | nil => simp only [List.length_cons, List.isEmpty_nil, if_true]; omega
  | cons p ps => simp

theorem Reads.progress_le (h : Reads .script limit st t st') : st.progress ≤ st'.progress := by
  obtain ⟨-, rfl⟩ | ⟨names, e, rfl, -⟩ | ⟨p, rfl⟩ | ⟨p, ps, e, hp, rfl, -⟩ := h.effect
  · exact Nat.le_refl _
  · rw [State.progress_add]
    split
    · exact Nat.le_add_right _ 2
    · exact Nat.le_refl _
  · unfold State.progress
    cases st.pending <;> simp
  · rw [State.progress_add]
    unfold State.progress
    cases ps <;> simp [hp]

/-- A line that is over has no room for another token. -/
theorem Reads.progress_of_over (h : Reads .script limit st t st') (hk : t.kind ≠ .blank)
    (hover : st.lineIsOver .line = true) : 2 < st'.progress := by
  simp only [State.lineIsOver, Bool.and_eq_true, Bool.not_eq_true'] at hover
  obtain ⟨⟨-, hpending⟩, hcomplete⟩ := hover
  have hpos : 2 ≤ st.progress := by
    unfold State.progress
    cases hc : st.complete with
    | nil => simp [hc] at hcomplete
    | cons e es => simp only [List.length_cons]; omega
  obtain ⟨hblank, -⟩ | ⟨names, e, rfl, -⟩ | ⟨p, rfl⟩ | ⟨p, ps, e, hp, -, -⟩ := h.effect
  · exact absurd hblank hk
  · rw [State.progress_add, if_pos hpending]
    unfold State.progress at hpos ⊢
    simp only
    omega
  · unfold State.progress at hpos ⊢
    simp only [hpending, List.isEmpty_cons, Bool.false_eq_true, if_true, if_false] at hpos ⊢
    omega
  · simp [hp] at hpending

theorem State.complete_suffix_add (st : State) (e : Expr) :
    st.complete <:+ (st.add e).complete := by
  unfold State.add
  split
  · exact List.suffix_cons _ _
  · exact List.suffix_rfl

theorem Reads.complete_suffix {mode : Mode} (h : Reads mode limit st t st') :
    st.complete <:+ st'.complete := by
  obtain ⟨-, rfl⟩ | ⟨names, e, rfl, -⟩ | ⟨p, rfl⟩ | ⟨p, ps, e, -, rfl, -⟩ := h.effect
  · exact List.suffix_rfl
  · exact State.complete_suffix_add { st with names := names } e
  · exact List.suffix_rfl
  · exact State.complete_suffix_add { st with pending := ps } e

/-- The token that completes an expression ends where the expression does. -/
theorem Reads.hi_eq {mode : Mode} (h : Reads mode limit st t st') (hnone : st.complete = [])
    {e : Expr} (he : st'.complete = [e]) : e.span.hi = t.span.hi := by
  have hadd (st : State) {x : Expr} (hnone : st.complete = [])
      (he : (st.add x).complete = [e]) : x = e := by
    unfold State.add at he
    split at he
    · rw [hnone] at he
      exact (List.cons.inj he).1
    · rw [hnone] at he
      cases he
  obtain ⟨-, rfl⟩ | ⟨names, x, rfl, hx⟩ | ⟨p, rfl⟩ | ⟨p, ps, x, -, rfl, hx⟩ := h.effect
  · cases hnone.symm.trans he
  · rw [← hadd { st with names := names } hnone he, hx]
  · cases hnone.symm.trans he
  · rw [← hadd { st with pending := ps } hnone he, hx]

/-! ### Runs -/

theorem Steps.script : ∀ {ts : List Token} {st st' : State},
    Steps .line limit st ts st' → Steps .script limit st ts st'
  | [], _, _, h => h
  | _ :: _, _, _, ⟨st₁, hread, hsteps⟩ => ⟨st₁, hread.script, hsteps.script⟩

theorem Steps.progress_le : ∀ {ts : List Token} {st st' : State},
    Steps .script limit st ts st' → st.progress ≤ st'.progress
  | [], _, _, rfl => Nat.le_refl _
  | _ :: _, _, _, ⟨_, hread, hsteps⟩ => Nat.le_trans hread.progress_le hsteps.progress_le

theorem Steps.line : ∀ {ts : List Token} {st st' : State},
    Steps .script limit st ts st' → st'.Single → Steps .line limit st ts st'
  | [], _, _, h, _ => h
  | t :: ts, st, st', ⟨st₁, hread, hsteps⟩, hs => by
    refine ⟨st₁, ?_, hsteps.line hs⟩
    by_cases hk : t.kind = .blank
    · rw [← step_ok_iff, step_blank hk]
      exact (step_blank hk).symm.trans (step_ok_iff.2 hread)
    · -- Were the line over, this token would take it beyond one expression for good.
      have hover : st.lineIsOver .line = false := by
        rw [Bool.eq_false_iff]
        intro hover
        have hbeyond := hread.progress_of_over hk hover
        have hrest := hsteps.progress_le
        have hend := State.single_iff.1 hs
        omega
      rw [← step_ok_iff, step_line_eq hover]
      exact step_ok_iff.2 hread

/-- A line is read as a script, as long as there is at most one expression. -/
theorem steps_line_iff {ts : List Token} (hs : st.Single) :
    Steps .line limit st ts st' ↔ Steps .script limit st ts st' ∧ st'.Single :=
  ⟨fun h => ⟨h.script, h.single hs⟩, fun h => h.1.line h.2⟩

theorem State.over_iff (hs : st.Single) :
    st.lineIsOver .line = true ↔ st.pending = [] ∧ ∃ e, st.complete = [e] := by
  rcases hs with h | ⟨hpending, e, he⟩
  · simp [State.lineIsOver, h]
  · simp [State.lineIsOver, hpending, he]

/-- Behind the expression of a line, anything but blanks is refused. -/
theorem run_over {size : Nat} {failure : Option SyntaxError} (hover : st.lineIsOver .line = true) :
    ∀ ts : List Token, run .line limit size failure ts st =
      match ts.find? (·.kind ≠ .blank) with
      | some t => (.error ⟨.expectedEndOfLine, t.span⟩, st.names)
      | none => (finish .line size failure st, st.names)
  | [] => rfl
  | t :: ts => by
    rw [run]
    by_cases hk : t.kind = .blank
    · rw [step_blank hk, List.find?_cons_of_neg (by simp [hk])]
      exact run_over hover ts
    · rw [step_over hk hover, List.find?_cons_of_pos (by simp [hk])]

theorem Steps.complete_suffix {mode : Mode} : ∀ {ts : List Token} {st st' : State},
    Steps mode limit st ts st' → st.complete <:+ st'.complete
  | [], _, _, rfl => List.suffix_rfl
  | _ :: _, _, _, ⟨_, hread, hsteps⟩ => hread.complete_suffix.trans hsteps.complete_suffix

/-! ### The end of the first expression -/

theorem Steps.eq_of_over : ∀ {ts : List Token} {st st' : State},
    Steps .line limit st ts st' → st.lineIsOver .line = true → st' = st
  | [], _, _, h, _ => h
  | t :: _, st, _, ⟨st₁, hread, hsteps⟩, hover => by
    by_cases hk : t.kind = .blank
    · have hsame : st = st₁ :=
        Except.ok.inj ((step_blank hk).symm.trans (step_ok_iff.2 hread))
      subst hsame
      exact hsteps.eq_of_over hover
    · have hrefused := (step_over hk hover).symm.trans (step_ok_iff.2 hread)
      cases hrefused

/-- A line comes to its only expression with the token that ends it. -/
theorem Steps.exists_last : ∀ {ts : List Token} {st st' : State} {e : Expr},
    Steps .line limit st ts st' → st.complete = [] → st'.complete = [e] →
      ∃ us t vs, ts = us ++ t :: vs ∧ Steps .line limit st (us ++ [t]) st' ∧
        e.span.hi = t.span.hi
  | [], _, _, _, rfl, hnone, he => nomatch hnone.symm.trans he
  | t :: ts, st, st', e, ⟨st₁, hread, hsteps⟩, hnone, he => by
    rcases hread.single (.inl hnone) with hnone₁ | hdone
    · obtain ⟨us, u, vs, rfl, hsteps', hhi⟩ := hsteps.exists_last hnone₁ he
      exact ⟨t :: us, u, vs, rfl, ⟨st₁, hread, hsteps'⟩, hhi⟩
    · have hover := (State.over_iff (.inr hdone)).2 hdone
      obtain rfl := hsteps.eq_of_over hover
      exact ⟨[], t, ts, rfl, ⟨st', hread, rfl⟩, hread.hi_eq hnone he⟩

end Parser

/-! ### Where tokens stop -/

namespace Token.Chained

variable {source source' : Bytes}

theorem split : ∀ {us vs : List Token} {start stop : Nat}, Chained source start (us ++ vs) stop →
    ∃ mid, Chained source start us mid ∧ Chained source mid vs stop
  | [], _, start, _, h => ⟨start, rfl, h⟩
  | _ :: _, _, _, _, ⟨hlo, hfits, h⟩ => by
    obtain ⟨mid, hus, hvs⟩ := h.split
    exact ⟨mid, ⟨hlo, hfits, hus⟩, hvs⟩

theorem stop_unique : ∀ {ts : List Token} {start stop stop' : Nat},
    Chained source start ts stop → Chained source' start ts stop' → stop = stop'
  | [], _, _, _, h, h' => h.symm.trans h'
  | _ :: _, _, _, _, h, h' => h.2.2.stop_unique h'.2.2

theorem stop_eq : ∀ {us : List Token} {t : Token} {start stop : Nat},
    Chained source start (us ++ [t]) stop → t.span.hi = stop
  | [], _, _, _, h => h.2.2
  | _ :: _, _, _, _, h => h.2.2.stop_eq

theorem start_le : ∀ {ts : List Token} {start stop : Nat},
    Chained source start ts stop → start ≤ stop
  | [], _, _, h => Nat.le_of_eq h
  | _ :: _, _, _, ⟨hlo, hfits, h⟩ => by
    have := hfits.nonempty
    have := h.start_le
    omega

theorem lo_lt : ∀ {ts : List Token} {start stop : Nat}, Chained source start ts stop →
    ∀ t ∈ ts, t.span.lo < stop
  | u :: ts, _, _, ⟨_, hfits, h⟩, t, ht => by
    rcases List.mem_cons.1 ht with rfl | ht
    · exact Nat.lt_of_lt_of_le hfits.nonempty h.start_le
    · exact h.lo_lt t ht

end Token.Chained

/-- Where the tokens of a text stop: at its end, or at the bytes that are no token. -/
def tokensEnd (text : Bytes) : Nat :=
  match (tokens text).2 with
  | none => text.length
  | some e => e.span.lo

theorem chained_tokensEnd (text : Bytes) :
    Token.Chained text 0 (tokens text).1 (tokensEnd text) := by
  have h := chained_tokens text
  unfold tokensEnd
  cases he : (tokens text).2 with
  | none =>
    rw [he] at h
    exact h
  | some e =>
    rw [he] at h
    exact h.2.2

theorem tokensEnd_le (text : Bytes) : tokensEnd text ≤ text.length := by
  unfold tokensEnd
  cases he : (tokens text).2 with
  | none => exact Nat.le_refl _
  | some e =>
    obtain ⟨hlo, hhi⟩ := within_of_tokens_error he
    exact Nat.le_trans hlo hhi

theorem Expr.exists_first_token {source : Bytes} {names : Interner} {head : Bool} :
    ∀ {e : Expr}, e.Faithful source names head →
      ∃ t ts, e.tokens source = t :: ts ∧ t.span.lo = e.span.lo
  | list _ _, _ | vector _ _, _ => ⟨_, _, rfl, rfl⟩
  | integer _ _, _ | string _, _ | bool _ _, _ | keyword _ _, _ | nil _, _ | operator _ _, _
  | symbol _ _, _ => ⟨_, _, rfl, rfl⟩

/-! ### What a text begins with -/

namespace Parser

variable {limit : Nat} {names : Interner} {text : Bytes} {e : Expr}

/-- The text begins with a complete expression: cut off between two tokens behind the expression, it
is a script that holds the expression only. -/
structure Begins (limit : Nat) (names : Interner) (text : Bytes) (e : Expr) : Prop where
  /-- The text up to the end of the expression holds nothing else. -/
  alone : (parseAll limit (text.take e.span.hi) names).1 = .ok [e]
  /-- The end of the expression cuts no token. -/
  cut : (tokens (text.take e.span.hi)).1 <+: (tokens text).1

/-- The place of what comes first from an offset on, blanks left out: a token, or else the bytes
that are none. -/
def nextSpan? (text : Bytes) (lo : Nat) : Option Span :=
  match (tokens text).1.find? fun t => t.kind ≠ .blank ∧ lo ≤ t.span.lo with
  | some t => some t.span
  | none => (tokens text).2.map (·.span)

/-- A line that comes to an expression begins with it. -/
theorem begins_of_steps {us vs : List Token} {st : State} (htokens : (tokens text).1 = us ++ vs)
    (hsteps : Steps .line limit { names := names } us st) (he : st.complete = [e]) :
    Begins limit names text e := by
  have hpending : st.pending = [] := by
    rcases hsteps.single (.inl rfl) with hnone | ⟨hpending, -⟩
    · cases hnone.symm.trans he
    · exact hpending
  obtain ⟨us', t, vs', rfl, hsteps, hhi⟩ := hsteps.exists_last rfl he
  have hscan : scan 0 text = ((us' ++ [t]) ++ (vs' ++ vs), (tokens text).2) := by
    rw [← tokens_eq_scan, Prod.ext_iff]
    refine ⟨?_, rfl⟩
    rw [htokens]
    simp
  obtain ⟨w, rest, rfl, -, hcut⟩ := exists_cut hscan
  have hw : tokens w = (us' ++ [t], none) := by
    have hempty := hcut [] fun kind _ => stops_nil kind
    rw [List.append_nil, scan_nil, List.append_nil] at hempty
    rwa [tokens_eq_scan]
  have hlength : e.span.hi = w.length := by
    have hchained := chained_tokensEnd w
    rw [tokensEnd, hw] at hchained
    exact hhi.trans hchained.stop_eq
  have htake : (w ++ rest).take e.span.hi = w := by rw [hlength, List.take_left]
  have hparse : parse .script limit w names = (.ok [e], st.names) := by
    refine parse_ok_iff.2 ⟨by rw [hw], st, ?_, hpending, by rw [he]; rfl, rfl⟩
    rw [hw]
    exact hsteps.script
  refine ⟨?_, ?_⟩
  · rw [htake]
    exact congrArg Prod.fst hparse
  · rw [htake, hw, htokens]
    simp

namespace Begins

/-- The reading of a line comes to the end of the expression that the text begins with. -/
theorem exists_run (h : Begins limit names text e) :
    ∃ us vs st, (tokens text).1 = us ++ vs ∧ Steps .line limit { names := names } us st ∧
      st.pending = [] ∧ st.complete = [e] ∧ Token.Chained text 0 us e.span.hi ∧
      Token.Chained text e.span.hi vs (tokensEnd text) := by
  obtain ⟨vs, htokens⟩ := h.cut
  have hparse : parse .script limit (text.take e.span.hi) names = (.ok [e], _) :=
    Prod.ext h.alone rfl
  have hlength : (text.take e.span.hi).length = e.span.hi := by
    have hnode : e ∈ Expr.nodesAll [e] := List.mem_append_left _ (Expr.mem_nodes_self e)
    have hle := (spans_of_parse hparse e hnode).2
    exact Nat.le_antisymm (List.length_take_le _ _) hle
  obtain ⟨hnone, st, hsteps, hpending, he, -⟩ := parse_ok_iff.1 hparse
  have he : st.complete = [e] := List.reverse_eq_iff.1 he
  have hchained := chained_tokensEnd text
  rw [← htokens] at hchained
  obtain ⟨mid, hus, hvs⟩ := hchained.split
  have hmid : mid = e.span.hi := by
    have hcut := chained_tokensEnd (text.take e.span.hi)
    rw [tokensEnd, hnone] at hcut
    exact (hus.stop_unique hcut).trans hlength
  subst hmid
  exact ⟨_, vs, st, htokens.symm, hsteps.line (.inr ⟨hpending, e, he⟩), hpending, he, hus, hvs⟩

theorem nextSpan?_eq {us vs : List Token} (htokens : (tokens text).1 = us ++ vs)
    (hus : Token.Chained text 0 us e.span.hi)
    (hvs : Token.Chained text e.span.hi vs (tokensEnd text)) :
    nextSpan? text e.span.hi =
      match vs.find? (·.kind ≠ .blank) with
      | some t => some t.span
      | none => (tokens text).2.map (·.span) := by
  have hbefore : (us.find? fun t => t.kind ≠ .blank ∧ e.span.hi ≤ t.span.lo) = none := by
    rw [List.find?_eq_none]
    intro t ht
    have := hus.lo_lt t ht
    simp only [decide_eq_true_eq]
    omega
  have hbehind : (vs.find? fun t => t.kind ≠ .blank ∧ e.span.hi ≤ t.span.lo) =
      vs.find? (·.kind ≠ .blank) := by
    refine List.find?_congr fun t ht => ?_
    simp [hvs.le_lo t ht]
  unfold nextSpan?
  rw [htokens, List.find?_append, hbefore, Option.none_or, hbehind]

/-- A line is over with the expression that it begins with. -/
theorem parse_line (h : Begins limit names text e) :
    (parse .line limit text names).1 =
      match nextSpan? text e.span.hi with
      | some span => .error ⟨.expectedEndOfLine, span⟩
      | none => .ok [e] := by
  obtain ⟨us, vs, st, htokens, hsteps, hpending, he, hus, hvs⟩ := h.exists_run
  have hover : st.lineIsOver .line = true :=
    (State.over_iff (.inr ⟨hpending, e, he⟩)).2 ⟨hpending, e, he⟩
  unfold parse
  simp only
  rw [nextSpan?_eq htokens hus hvs, htokens, run_append hsteps, run_over hover]
  cases vs.find? (·.kind ≠ .blank) with
  | some t => rfl
  | none =>
    cases (tokens text).2 with
    | some failure => simp only [finish, hover, Option.map_some, if_true]
    | none => simp [finish, hpending, he]

/-- What a text begins with precedes every error of its script. -/
theorem hi_le (h : Begins limit names text e) {err : SyntaxError}
    (herr : (parse .script limit text names).1 = .error err) : e.span.hi ≤ err.span.lo := by
  obtain ⟨us, vs, st, htokens, hsteps, -, -, -, hvs⟩ := h.exists_run
  unfold parse at herr
  simp only at herr
  rw [htokens, run_append hsteps.script] at herr
  rcases run_cases .script limit text.length (tokens text).2 vs st with
    ⟨st', -, hrun⟩ | ⟨ws, t, xs, st', e', rfl, -, hstep, hrun⟩
  · rw [hrun] at herr
    have hend := hvs.start_le
    have hle := tokensEnd_le text
    cases hfailure : (tokens text).2 with
    | some failure =>
      rw [tokensEnd, hfailure] at hend
      simp only [hfailure, finish, lineIsOver_script, Bool.false_eq_true, if_false,
        Except.error.injEq] at herr
      rwa [← herr]
    | none =>
      simp only [hfailure, finish] at herr
      split_ifs at herr
      cases herr
      exact Nat.le_trans hend hle
  · rw [hrun] at herr
    cases herr
    rw [span_of_step_error hstep]
    exact hvs.le_lo t (by simp)

end Begins

/-! ### Both readers -/

theorem finish_line_eq {st : State} (hover : st.lineIsOver .line = false) (size : Nat)
    (failure : Option SyntaxError) :
    finish .line size failure st = finish .script size failure st := by
  unfold finish
  rw [hover, lineIsOver_script]

/-- A text that does not begin with an expression is read the same as a line and as a script. -/
theorem parse_line_eq_or_begins (limit : Nat) (text : Bytes) (names : Interner) :
    parse .line limit text names = parse .script limit text names ∨
      ∃ e, Begins limit names text e := by
  unfold parse
  simp only
  rcases run_cases .line limit text.length (tokens text).2 (tokens text).1 { names := names } with
    ⟨st, hsteps, hrun⟩ | ⟨us, t, vs, st, err, htokens, hsteps, hstep, hrun⟩
  · by_cases hover : st.lineIsOver .line = true
    · obtain ⟨-, e, he⟩ := (State.over_iff (hsteps.single (.inl rfl))).1 hover
      exact .inr ⟨e, begins_of_steps (List.append_nil _).symm hsteps he⟩
    · refine .inl ?_
      rw [hrun, run_of_steps hsteps.script, finish_line_eq (Bool.eq_false_iff.2 hover)]
  · by_cases hover : st.lineIsOver .line = true
    · obtain ⟨-, e, he⟩ := (State.over_iff (hsteps.single (.inl rfl))).1 hover
      exact .inr ⟨e, begins_of_steps htokens hsteps he⟩
    · refine .inl ?_
      rw [step_line_eq (Bool.eq_false_iff.2 hover)] at hstep
      rw [hrun, htokens, run_append hsteps.script, run, hstep]

/-- A text is accepted as a line exactly if it is a script of at most one expression. -/
theorem parse_line_ok_iff {names' : Interner} {es : List Expr} :
    parse .line limit text names = (.ok es, names') ↔
      parse .script limit text names = (.ok es, names') ∧ es.length ≤ 1 := by
  rw [parse_ok_iff, parse_ok_iff]
  constructor
  · rintro ⟨hnone, st, hsteps, hpending, rfl, rfl⟩
    obtain ⟨hscript, hsingle⟩ := (steps_line_iff (.inl rfl)).1 hsteps
    refine ⟨⟨hnone, st, hscript, hpending, rfl, rfl⟩, ?_⟩
    rcases hsingle with h | ⟨-, e, he⟩
    · simp [h]
    · simp [he]
  · rintro ⟨⟨hnone, st, hsteps, hpending, rfl, rfl⟩, hlength⟩
    refine ⟨hnone, st, (steps_line_iff (.inl rfl)).2 ⟨hsteps, ?_⟩, hpending, rfl, rfl⟩
    rw [List.length_reverse] at hlength
    match hc : st.complete with
    | [] => exact .inl hc
    | [e] => exact .inr ⟨hpending, e, hc⟩
    | _ :: _ :: _ => simp [hc] at hlength

theorem Steps.of_append {mode : Mode} {vs : List Token} {st₁ st₂ : State} :
    ∀ {us : List Token} {st : State}, Steps mode limit st us st₁ →
      Steps mode limit st (us ++ vs) st₂ → Steps mode limit st₁ vs st₂
  | [], _, rfl, h => h
  | _ :: _, _, ⟨st', hread, hsteps⟩, ⟨st'', hread', h⟩ => by
    have hsame : st' = st'' :=
      Except.ok.inj ((step_ok_iff.2 hread).symm.trans (step_ok_iff.2 hread'))
    subst hsame
    exact hsteps.of_append h

/-- In a script of several expressions the second one follows the one that the text begins with. -/
theorem Begins.nextSpan?_of_second (h : Begins limit names text e) {names' : Interner}
    {e₁ e₂ : Expr} {es : List Expr}
    (hall : parse .script limit text names = (.ok (e₁ :: e₂ :: es), names')) :
    ∃ hi, nextSpan? text e.span.hi = some ⟨e₂.span.lo, hi⟩ := by
  obtain ⟨us, vs, st, htokens, hsteps, hpending, he, hus, hvs⟩ := h.exists_run
  obtain ⟨htrees, hfaithful⟩ := parse_ok hall
  obtain ⟨-, st', hsteps', -, hcomplete, -⟩ := parse_ok_iff.1 hall
  rw [htokens] at hsteps' htrees
  -- The first expression of the script is the one that the text begins with.
  have hfirst : e = e₁ := by
    obtain ⟨later, hlater⟩ := (hsteps.script.of_append hsteps').complete_suffix
    rw [← hlater, he] at hcomplete
    simp only [List.reverse_append, List.reverse_cons, List.reverse_nil, List.nil_append,
      List.singleton_append, List.cons.injEq] at hcomplete
    exact hcomplete.1
  subst hfirst
  have hfits : ∀ t ∈ us, t.Fits text := hus.forall_fits
  have husTokens := hsteps.tokens_eq (sound_start text names) hfits
  rw [flatMap_trace] at husTokens
  simp only [State.tokens, he, hpending, List.reverse_cons, List.reverse_nil, List.nil_append,
    List.flatMap_nil, List.append_nil, Expr.tokensAll] at husTokens
  rw [Expr.tokensAll, List.filter_append, husTokens, List.append_cancel_left_eq] at htrees
  obtain ⟨t, ts, ht, hlo⟩ := Expr.exists_first_token hfaithful.2.1
  have hfind : vs.find? (·.kind ≠ .blank) = some t := by
    rw [← List.head?_filter, ← htrees, Expr.tokensAll, ht]
    rfl
  rw [nextSpan?_eq htokens hus hvs, hfind]
  exact ⟨t.span.hi, by rw [← hlo]⟩

end Parser

/-! ### Lines and scripts -/

namespace EvalM

theorem bind_pure_self {α : Type} (x : EvalM α) : (x >>= fun a => pure a) = x := by
  funext m
  rcases hx : x m with ⟨r, m'⟩
  cases r with
  | ok a => rw [bind_of_ok hx]; rfl
  | error f => rw [bind_of_error hx]

end EvalM

theorem parseLine_error_of_parse {limit : Nat} {text : Bytes} {names : Interner} {e : SyntaxError}
    (h : (Parser.parse .line limit text names).1 = .error e) :
    (parseLine limit text names).1 = .error e := by
  unfold parseLine
  simp only [h]
  rfl

/-- Evaluating the expression of a line is evaluating the script that holds it only. -/
theorem Session.evalLine_eq_evalScript {s : Session} (hdepth : s.depth = 0) {text : Bytes}
    {e : Expr} (h : (s.parse text).1 = .ok e) : s.evalLine text = s.evalScript text := by
  have hline : parseLine s.options.limit text s.names = (.ok e, (s.parse text).2.names) :=
    Prod.ext h rfl
  obtain ⟨es, hparse, rfl⟩ := parse_of_parseLine hline
  obtain ⟨hscript, hlength⟩ := Parser.parse_line_ok_iff.1 hparse
  have hread : s.parseScript text = (.ok es, (s.parse text).2) := by
    unfold Session.parseScript parseAll
    rw [hscript]
    rfl
  have hreadLine : s.parse text = (.ok (es.headD (.nil (.point text.length))), (s.parse text).2) :=
    Prod.ext h rfl
  unfold Session.evalLine Session.evalScript
  rw [hreadLine, hread]
  match es, hlength with
  | [], _ =>
    show Session.run _ (Expr.eval _ _ (.nil _)) = Session.run _ (pure Value.nil)
    unfold Session.run
    rw [Session.eval_nil (by exact hdepth)]
    rfl
  | [x], _ =>
    show Session.run _ (x.eval _ _) = Session.run _ (x.eval _ _ >>= fun v => pure v)
    rw [EvalM.bind_pure_self]

/-- The reading of a text as a line is determined by its reading as a script.  The text is accepted
as a line exactly if the script holds at most one expression, and the line is that expression, or
`nil` at the end of the text.  A second expression is refused where it starts.  An error of the
script is that of the line, unless the text begins with a complete expression: then the error comes
behind that expression, and the line is refused at the next token or at the bytes that are none.
Where the line is accepted, evaluating it is evaluating the script, in every session with no
evaluation under way. -/
theorem line_determined_by_script (limit : Nat) (text : Bytes) (names : Interner) :
    (∀ e names', parseLine limit text names = (.ok e, names') ↔
      ∃ es, parseAll limit text names = (.ok es, names') ∧ es.length ≤ 1 ∧
        e = es.headD (.nil (.point text.length))) ∧
    (∀ e₁ e₂ es, (parseAll limit text names).1 = .ok (e₁ :: e₂ :: es) →
      ∃ hi, (parseLine limit text names).1 = .error ⟨.expectedEndOfLine, ⟨e₂.span.lo, hi⟩⟩) ∧
    (∀ err, (parseAll limit text names).1 = .error err →
      ((¬ ∃ e, Parser.Begins limit names text e) → (parseLine limit text names).1 = .error err) ∧
      ∀ e, Parser.Begins limit names text e → e.span.hi ≤ err.span.lo ∧
        ∃ span, Parser.nextSpan? text e.span.hi = some span ∧
          (parseLine limit text names).1 = .error ⟨.expectedEndOfLine, span⟩) ∧
    ∀ s : Session, s.depth = 0 → (∃ e, (s.parse text).1 = .ok e) →
      s.evalLine text = s.evalScript text := by
  refine ⟨fun e names' => ⟨fun h => ?_, ?_⟩, fun e₁ e₂ es hall => ?_,
    fun err herr => ⟨fun hno => ?_, fun e he => ⟨he.hi_le herr, ?_⟩⟩,
    fun s hdepth ⟨e, he⟩ => s.evalLine_eq_evalScript hdepth he⟩
  · obtain ⟨es, hparse, rfl⟩ := parse_of_parseLine h
    obtain ⟨hscript, hlength⟩ := Parser.parse_line_ok_iff.1 hparse
    exact ⟨es, hscript, hlength, rfl⟩
  · rintro ⟨es, hscript, hlength, rfl⟩
    exact parseLine_of_parse (Parser.parse_line_ok_iff.2 ⟨hscript, hlength⟩)
  · have hscript : Parser.parse .script limit text names = (.ok (e₁ :: e₂ :: es), _) :=
      Prod.ext hall rfl
    rcases Parser.parse_line_eq_or_begins limit text names with hsame | ⟨e, he⟩
    · have hshort := (Parser.parse_line_ok_iff.1 (hsame.trans hscript)).2
      simp at hshort
    · obtain ⟨hi, hnext⟩ := he.nextSpan?_of_second hscript
      refine ⟨hi, parseLine_error_of_parse ?_⟩
      rw [he.parse_line, hnext]
  · refine parseLine_error_of_parse ?_
    rcases Parser.parse_line_eq_or_begins limit text names with hsame | hbegins
    · rw [hsame]
      exact herr
    · exact absurd hbegins hno
  · have hline := he.parse_line
    cases hnext : Parser.nextSpan? text e.span.hi with
    | some span =>
      rw [hnext] at hline
      exact ⟨span, rfl, parseLine_error_of_parse hline⟩
    | none =>
      rw [hnext] at hline
      have hscript := (Parser.parse_line_ok_iff.1 (Prod.ext hline rfl)).1
      cases herr.symm.trans (congrArg Prod.fst hscript)

/-- A list that is never closed behind an integer: an error at the end for the script, but at the
list for the line. -/
theorem line_determined_by_script_open_list :
    let text := utf8 "7 ,(a"
    (parseAll 1 text {}).1 = .error ⟨.unclosed, ⟨5, 5⟩⟩ ∧
      Parser.Begins 1 {} text (.integer ⟨0, 1⟩ 7) ∧
      (parseLine 1 text {}).1 = .error ⟨.expectedEndOfLine, ⟨3, 4⟩⟩ := by
  intro text
  have hscript : (parseAll 1 text {}).1 = .error ⟨.unclosed, ⟨5, 5⟩⟩ := by
    unfold parseAll Parser.parse
    rw [tokens_eq_scan]
    rfl
  have hbegins : Parser.Begins 1 {} text (.integer ⟨0, 1⟩ 7) := by
    refine ⟨?_, ?_⟩
    · unfold parseAll Parser.parse
      rw [tokens_eq_scan]
      rfl
    · rw [tokens_eq_scan, tokens_eq_scan]
      exact ⟨_, rfl⟩
  obtain ⟨-, span, hnext, hline⟩ :=
    ((line_determined_by_script 1 text {}).2.2.1 _ hscript).2 _ hbegins
  have hspan : Parser.nextSpan? text 1 = some ⟨3, 4⟩ := by
    unfold Parser.nextSpan?
    rw [tokens_eq_scan]
    rfl
  cases hspan.symm.trans hnext
  exact ⟨hscript, hbegins, hline⟩

end SpanLisp
