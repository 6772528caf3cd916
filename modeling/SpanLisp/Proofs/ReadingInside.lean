import SpanLisp.Proofs.JoinedScripts
import SpanLisp.Proofs.LineAndScript
import SpanLisp.Proofs.Relayout

/-!
# Reading inside an open sequence

What is read as a script on its own is read the same way inside an open sequence, where it adds its
expressions to that sequence (`State.inside`).  Two things can differ: the sequences around it count
for the nesting limit, and at the head of a list an operator's name is an operator.  So between
parentheses and between brackets a script is refused alike or read alike, but for an operator's name
in front (`asList`, `abreast_elements`).
-/

namespace SpanLisp

namespace Parser

variable {limit : Nat} {st st' : State} {t : Token} {p q : Pending} {ps : List Pending}

/-- The state of a script inside the open sequence `p`, which is inside `ps`. -/
def State.inside (st : State) (p : Pending) (ps : List Pending) : State where
  pending := st.pending ++ { p with elems := st.complete ++ p.elems } :: ps
  names := st.names

theorem State.inside_add (st : State) (e : Expr) (p : Pending) (ps : List Pending) :
    (st.add e).inside p ps = (st.inside p ps).add e := by
  obtain ⟨pending, complete, names⟩ := st
  cases pending <;> rfl

theorem State.lineIsOver_inside (mode : Mode) : (st.inside p ps).lineIsOver mode = false := by
  simp [State.lineIsOver, State.inside]

theorem State.length_pending_inside :
    (st.inside p ps).pending.length = st.pending.length + (ps.length + 1) := by
  simp [State.inside]

/-- What the script reads next does not stand at the head of the list `p`. -/
def State.Past (st : State) (p : Pending) : Prop :=
  p.delim = .paren → p.elems = [] → st.complete = [] → st.pending ≠ []

theorem State.Past.atHead_eq (h : st.Past p) : (st.inside p ps).atHead = st.atHead := by
  obtain ⟨pending, complete, names⟩ := st
  obtain ⟨delim, lo, elems⟩ := p
  cases pending with
  | cons q qs =>
    obtain ⟨d, lo', xs⟩ := q
    cases d <;> cases xs <;> rfl
  | nil =>
    cases complete with
    | cons e es => cases delim <;> rfl
    | nil =>
      cases elems with
      | cons e es => cases delim <;> rfl
      | nil =>
        cases delim with
        | paren => exact absurd rfl (h rfl rfl rfl)
        | bracket | brace => rfl

theorem State.past_add (st : State) (e : Expr) (p : Pending) : (st.add e).Past p := by
  obtain ⟨pending, complete, names⟩ := st
  intro _ _ hcomplete
  cases pending with
  | nil => cases hcomplete
  | cons q qs => exact List.cons_ne_nil _ _

/-- Behind a token that is no blank nothing stands at the head. -/
theorem Reads.past {mode : Mode} (h : Reads mode limit st t st')
    (hp : t.kind = .blank → st.Past p) : st'.Past p := by
  obtain ⟨hk, rfl⟩ | ⟨names, e, rfl, -⟩ | ⟨q, rfl⟩ | ⟨q, qs, e, -, rfl, -⟩ := h.effect
  · exact hp hk
  · exact State.past_add _ e p
  · exact fun _ _ _ => List.cons_ne_nil _ _
  · exact State.past_add _ e p

theorem wordAt_of_ofName?_eq_none {text : Bytes} (h : Operator.ofName? text = none) (head : Bool)
    (span : Span) (names : Interner) : wordAt head span text names = word span text names := by
  unfold wordAt
  cases head <;> simp [h]

theorem wordAt_inside (hword : st.Past p ∨ Operator.ofName? t.text = none) :
    wordAt (st.inside p ps).atHead t.span t.text st.names =
      wordAt st.atHead t.span t.text st.names := by
  rcases hword with hpast | hname
  · rw [hpast.atHead_eq]
  · rw [wordAt_of_ofName?_eq_none hname, wordAt_of_ofName?_eq_none hname]

/-- Inside an open sequence a token of a script is read the same way, if it does not nest too deep
and is no operator's name at the head of a list. -/
theorem Reads.inside (h : Reads .script 0 st t st')
    (hword : t.kind = .symbol → st.Past p ∨ Operator.ofName? t.text = none)
    (hdepth : ∀ d, t.kind = .opening d →
      ¬ (0 < limit ∧ limit < st.pending.length + (ps.length + 1) + 1)) :
    Reads .line limit (st.inside p ps) t (st'.inside p ps) := by
  have hover : (st.inside p ps).lineIsOver .line = false := State.lineIsOver_inside .line
  cases h with
  | blank hk => exact .blank hk
  | integer hk _ hfits =>
    rw [State.inside_add]
    exact .integer hk hover hfits
  | string hk _ =>
    rw [State.inside_add]
    exact .string hk hover
  | word hk _ =>
    rw [State.inside_add, ← wordAt_inside (hword hk)]
    exact .word hk hover
  | opening d hk _ hd _ =>
    refine .opening d hk hover hd ?_
    rw [State.length_pending_inside]
    exact hdepth d hk
  | closing r rs hp hk _ =>
    rw [State.inside_add]
    refine .closing r _ ?_ hk hover
    rw [State.inside, hp]
    rfl

theorem Reads.step_inside_of_deep {d : Delim} (h : Reads .script 0 st t st')
    (hk : t.kind = .opening d)
    (hdeep : 0 < limit ∧ limit < st.pending.length + (ps.length + 1) + 1) :
    step .line limit (st.inside p ps) t = .error ⟨.nestingTooDeep, t.span⟩ := by
  have hd : d ≠ .brace := by
    cases h with
    | opening d' hk' _ hd _ =>
      rw [hk] at hk'
      cases hk'
      exact hd
    | blank hk' | integer hk' | string hk' | word hk' | closing _ _ _ hk' =>
      rw [hk] at hk'
      cases hk'
  have hover : (st.inside p ps).lineIsOver .line = false := State.lineIsOver_inside .line
  rw [← State.length_pending_inside (p := p)] at hdeep
  simp [step, hk, hover, hd, hdeep]

/-! ### Two runs side by side -/

/-- Reading the tokens from the state ends with the error, whatever follows them. -/
def Refuses (limit : Nat) (st : State) (ts : List Token) (e : SyntaxError) (names : Interner) :
    Prop :=
  ∀ size failure us, run .line limit size failure (ts ++ us) st = (.error e, names)

theorem Refuses.append {ts : List Token} {e : SyntaxError} {names : Interner}
    (h : Refuses limit st ts e names) (us : List Token) : Refuses limit st (ts ++ us) e names := by
  intro size failure vs
  rw [List.append_assoc]
  exact h size failure (us ++ vs)

theorem Refuses.of_steps {ts us : List Token} {e : SyntaxError} {names : Interner}
    (hsteps : Steps .line limit st ts st') (h : Refuses limit st' us e names) :
    Refuses limit st (ts ++ us) e names := by
  intro size failure vs
  rw [List.append_assoc, run_append hsteps]
  exact h size failure vs

theorem refuses_of_step_error {e : SyntaxError} (h : step .line limit st t = .error e) :
    Refuses limit st [t] e st.names := by
  intro size failure us
  rw [List.singleton_append, run, h]

/-- The tokens `ts` from `a` and `us` from `b` are refused with the same error and the same names,
or they are read, up to `a'` and `b'`. -/
def Abreast (limit : Nat) (a : State) (ts : List Token) (a' : State) (b : State) (us : List Token)
    (b' : State) : Prop :=
  (∃ e names, Refuses limit a ts e names ∧ Refuses limit b us e names) ∨
    Steps .line limit a ts a' ∧ Steps .line limit b us b'

theorem Abreast.append {a a' a'' b b' b'' : State} {ts ts' us us' : List Token}
    (h : Abreast limit a ts a' b us b') (h' : Abreast limit a' ts' a'' b' us' b'') :
    Abreast limit a (ts ++ ts') a'' b (us ++ us') b'' := by
  rcases h with ⟨e, names, hts, hus⟩ | ⟨hts, hus⟩
  · exact .inl ⟨e, names, hts.append ts', hus.append us'⟩
  rcases h' with ⟨e, names, hts', hus'⟩ | ⟨hts', hus'⟩
  · exact .inl ⟨e, names, .of_steps hts hts', .of_steps hus hus'⟩
  · exact .inr ⟨hts.append hts', hus.append hus'⟩

theorem abreast_of_reads {a a' b b' : State} {t u : Token} (ha : Reads .line limit a t a')
    (hb : Reads .line limit b u b') : Abreast limit a [t] a' b [u] b' :=
  .inr ⟨⟨a', ha, rfl⟩, ⟨b', hb, rfl⟩⟩

/-- In two sequences with the same number of sequences around them, a token of a script has the same
fate. -/
theorem Reads.abreast (h : Reads .script 0 st t st')
    (hp : t.kind = .symbol → st.Past p ∨ Operator.ofName? t.text = none)
    (hq : t.kind = .symbol → st.Past q ∨ Operator.ofName? t.text = none) :
    Abreast limit (st.inside p ps) [t] (st'.inside p ps) (st.inside q ps) [t]
      (st'.inside q ps) := by
  by_cases hdeep : (∃ d, t.kind = .opening d) ∧ 0 < limit ∧
      limit < st.pending.length + (ps.length + 1) + 1
  · obtain ⟨⟨d, hk⟩, hdeep⟩ := hdeep
    exact .inl ⟨_, st.names, refuses_of_step_error (h.step_inside_of_deep hk hdeep),
      refuses_of_step_error (h.step_inside_of_deep hk hdeep)⟩
  · have hdepth (d : Delim) (hk : t.kind = .opening d) :
        ¬ (0 < limit ∧ limit < st.pending.length + (ps.length + 1) + 1) :=
      fun hlimit => hdeep ⟨⟨d, hk⟩, hlimit⟩
    exact abreast_of_reads (h.inside hp hdepth) (h.inside hq hdepth)

/-- So have all its tokens, once nothing stands at the head of a list any more. -/
theorem Steps.abreast : ∀ {ts : List Token} {st st' : State}, Steps .script 0 st ts st' →
    st.Past p → st.Past q →
    Abreast limit (st.inside p ps) ts (st'.inside p ps) (st.inside q ps) ts (st'.inside q ps)
  | [], _, _, rfl, _, _ => .inr ⟨rfl, rfl⟩
  | _ :: _, _, _, ⟨_, hread, hsteps⟩, hp, hq =>
    (hread.abreast (fun _ => .inl hp) fun _ => .inl hq).append
      (hsteps.abreast (hread.past fun _ => hp) (hread.past fun _ => hq))

/-! ### Elements of lists and of vectors -/

theorem Steps.unique {mode : Mode} : ∀ {ts : List Token} {st a b : State},
    Steps mode limit st ts a → Steps mode limit st ts b → a = b
  | [], _, _, _, rfl, rfl => rfl
  | _ :: _, _, _, _, ⟨a₁, ha, has⟩, ⟨b₁, hb, hbs⟩ => by
    obtain rfl : a₁ = b₁ := Except.ok.inj (ha.step_eq.symm.trans hb.step_eq)
    exact has.unique hbs

/-- Behind a complete expression a script goes on as if it began there. -/
theorem Steps.behind {ts : List Token} {e : Expr} {names : Interner}
    (h : Steps .script limit ⟨[], [e], names⟩ ts st') (hpending : st'.pending = []) :
    ∃ es names', st' = ⟨[], es ++ [e], names'⟩ ∧
      Steps .script limit ⟨[], [], names⟩ ts ⟨[], es, names'⟩ := by
  -- Whether the tokens can be read depends on what is open, not on what is complete.
  have hmatch := steps_iff_matches.1 ⟨st', h, hpending⟩
  obtain ⟨⟨pending, es, names'⟩, hsteps, rfl⟩ :
      ∃ st, Steps .script limit ⟨[], [], names⟩ ts st ∧ st.pending = [] :=
    steps_iff_matches.2 hmatch
  have hbehind := hsteps.after 0 [e]
  rw [show ts.map (Token.shift 0) = ts from List.map_id ts] at hbehind
  refine ⟨es, names', ?_, hsteps⟩
  rw [h.unique hbehind, State.after, ← Expr.shiftAll_eq_map, Expr.shiftAll_zero]
  rfl

theorem wordAt_false_of_ofName? {text : Bytes} {op : Operator}
    (h : Operator.ofName? text = some op) (span : Span) (names : Interner) :
    wordAt false span text names =
      (.symbol span (names.intern text).1, (names.intern text).2) := by
  unfold Operator.ofName? at h
  split_ifs at h with h₁ h₂ h₃
  · rw [h₁]; rfl
  · rw [h₂]; rfl
  · rw [h₃]; rfl

/-- A script that begins with no operator's name has the same fate in both sequences. -/
theorem Steps.abreast_of_first {ts : List Token} (h : Steps .script 0 st (t :: ts) st')
    (hk : t.kind ≠ .blank) (hname : t.kind = .symbol → Operator.ofName? t.text = none) :
    Abreast limit (st.inside p ps) (t :: ts) (st'.inside p ps) (st.inside q ps) (t :: ts)
      (st'.inside q ps) := by
  obtain ⟨st₁, hread, hsteps⟩ := h
  exact (hread.abreast (fun hk => .inr (hname hk)) fun hk => .inr (hname hk)).append
    (hsteps.abreast (hread.past fun h => absurd h hk) (hread.past fun h => absurd h hk))

end Parser

/-- The place of the operator's name that the expressions of a text begin with. -/
def firstOperator? (text : Bytes) : List Expr → Option (Span × Operator)
  | .symbol span _ :: _ => (Operator.ofName? (span.of text)).map (span, ·)
  | _ => none

/-- The expressions of a text as they are between parentheses, where an operator's name in front is
an operator. -/
def asList (text : Bytes) (es : List Expr) : List Expr :=
  match firstOperator? text es with
  | some (span, op) => .operator span op :: es.tail
  | none => es

namespace Parser

variable {limit : Nat} {text : Bytes} {names names' : Interner} {es : List Expr}

/-- If the first token of a script is no operator's name, nor is its first expression. -/
theorem firstOperator?_eq_none {t : Token} {ts : List Token}
    (h : parse .script 0 text names = (.ok es, names')) (hts : solidTokens text = t :: ts)
    (ht : t.kind = .symbol → Operator.ofName? t.text = none) : firstOperator? text es = none := by
  have htokens := (parse_ok h).1
  rw [← solidTokens, hts] at htokens
  unfold firstOperator?
  split
  · rename_i span sym rest
    obtain ⟨rfl, -⟩ := List.cons.inj htokens
    rw [Option.map_eq_none_iff]
    exact ht rfl
  · rfl

theorem Steps.of_operator_name {t : Token} {ts : List Token} {st : State} {op : Operator}
    (h : Steps .script limit ⟨[], [], names⟩ (t :: ts) st) (hpending : st.pending = [])
    (hk : t.kind = .symbol) (hop : Operator.ofName? t.text = some op) :
    ∃ es names', st = ⟨[], es ++ [.symbol t.span (names.intern t.text).1], names'⟩ ∧
      Steps .script limit ⟨[], [], (names.intern t.text).2⟩ ts ⟨[], es, names'⟩ := by
  obtain ⟨st₁, hread, hsteps⟩ := h
  have hword : Reads .script limit ⟨[], [], names⟩ t _ := .word hk (lineIsOver_script _)
  obtain rfl := Except.ok.inj (hread.step_eq.symm.trans hword.step_eq)
  simp only [State.atHead, wordAt_false_of_ofName? hop] at hsteps
  exact hsteps.behind hpending

/-- An operator's name in front is an operator between parentheses and a symbol between brackets;
the rest is the same. -/
theorem abreast_operator {t : Token} {ts : List Token} {op : Operator} {xs : List Expr}
    (hk : t.kind = .symbol) (hop : Operator.ofName? t.text = some op)
    (h : Steps .script 0 ⟨[], [], (names.intern t.text).2⟩ ts ⟨[], xs, names'⟩) (limit lo : Nat)
    (ps : List Pending) :
    Abreast limit ⟨⟨.paren, lo, []⟩ :: ps, [], names⟩ (t :: ts)
      ⟨⟨.paren, lo, xs ++ [.operator t.span op]⟩ :: ps, [], names'⟩
      ⟨⟨.bracket, lo, []⟩ :: ps, [], names⟩ (t :: ts)
      ⟨⟨.bracket, lo, xs ++ [.symbol t.span (names.intern t.text).1]⟩ :: ps, [], names'⟩ := by
  have hlist : Reads .line limit ⟨⟨.paren, lo, []⟩ :: ps, [], names⟩ t _ := .word hk rfl
  have hvector : Reads .line limit ⟨⟨.bracket, lo, []⟩ :: ps, [], names⟩ t _ := .word hk rfl
  have hhead : wordAt true t.span t.text names =
      (.operator t.span op, (names.intern t.text).2) := by
    simp only [wordAt, if_true, hop]
  simp only [State.atHead, hhead] at hlist
  simp only [State.atHead, wordAt_false_of_ofName? hop] at hvector
  exact (abreast_of_reads hlist hvector).append
    (h.abreast (p := ⟨.paren, lo, [.operator t.span op]⟩)
      (q := ⟨.bracket, lo, [.symbol t.span (names.intern t.text).1]⟩)
      (fun _ h => absurd h (List.cons_ne_nil _ _)) fun _ h => absurd h (List.cons_ne_nil _ _))

theorem Steps.further {ts : List Token} {xs : List Expr}
    (h : Steps .script limit ⟨[], [], names⟩ ts ⟨[], xs, names'⟩) (k : Nat) :
    Steps .script limit ⟨[], [], names⟩ (ts.map (Token.shift k))
      ⟨[], xs.map (Expr.shift k), names'⟩ := by
  have hafter := h.after k []
  simp only [State.after, List.append_nil] at hafter
  exact hafter

theorem steps_of_parse (h : parse .script limit text names = (.ok es, names')) :
    Steps .script limit ⟨[], [], names⟩ (solidTokens text) ⟨[], es.reverse, names'⟩ := by
  obtain ⟨-, ⟨pending, xs, _⟩, hsteps, rfl, rfl, rfl⟩ := parse_ok_iff.1 h
  rw [List.reverse_reverse]
  exact steps_filter.1 hsteps

/-- Between parentheses and between brackets an accepted script has the same fate; its expressions
are the same, but for an operator's name in front. -/
theorem abreast_elements (h : parse .script 0 text names = (.ok es, names')) (limit k lo : Nat)
    (ps : List Pending) :
    Abreast limit ⟨⟨.paren, lo, []⟩ :: ps, [], names⟩ ((solidTokens text).map (Token.shift k))
      ⟨⟨.paren, lo, (asList text es).reverse.map (Expr.shift k)⟩ :: ps, [], names'⟩
      ⟨⟨.bracket, lo, []⟩ :: ps, [], names⟩ ((solidTokens text).map (Token.shift k))
      ⟨⟨.bracket, lo, es.reverse.map (Expr.shift k)⟩ :: ps, [], names'⟩ := by
  have hsteps := steps_of_parse h
  cases hts : solidTokens text with
  | nil =>
    rw [hts] at hsteps
    obtain ⟨-, hes, rfl⟩ := State.mk.inj hsteps
    rw [List.reverse_eq_nil_iff.1 hes]
    exact .inr ⟨rfl, rfl⟩
  | cons t ts =>
    obtain ⟨hmem, hsolid⟩ := List.mem_filter.1 (hts ▸ List.mem_cons_self : t ∈ solidTokens text)
    have hblank : t.kind ≠ .blank := of_decide_eq_true hsolid
    rw [hts] at hsteps
    cases hop : if t.kind = .symbol then Operator.ofName? t.text else none with
    | none =>
      have hname (hk : t.kind = .symbol) : Operator.ofName? t.text = none := by
        rwa [if_pos hk] at hop
      rw [asList, firstOperator?_eq_none h hts hname]
      have habreast : Abreast limit (State.inside ⟨[], [], names⟩ ⟨.paren, lo, []⟩ ps) _ _
          (State.inside ⟨[], [], names⟩ ⟨.bracket, lo, []⟩ ps) _ _ :=
        (hsteps.further k).abreast_of_first hblank hname
      simp only [State.inside, List.append_nil] at habreast
      exact habreast
    | some op =>
      have hk : t.kind = .symbol := Decidable.byContradiction fun hk => by
        rw [if_neg hk] at hop
        cases hop
      rw [if_pos hk] at hop
      obtain ⟨ys, _, hst, hrest⟩ := hsteps.of_operator_name rfl hk hop
      obtain ⟨-, hes, rfl⟩ := State.mk.inj hst
      obtain rfl := List.reverse_eq_iff.1 hes
      have hlist : asList text (ys ++ [Expr.symbol t.span (names.intern t.text).1]).reverse =
          (ys ++ [Expr.operator t.span op]).reverse := by
        have htext := ((laid_tokens text).fits t hmem).text_eq
        simp [asList, firstOperator?, htext, hop]
      rw [hlist, List.reverse_reverse, List.reverse_reverse, List.map_append, List.map_append]
      exact abreast_operator (t := t.shift k) hk hop (hrest.further k) limit lo ps

/-- Behind other elements an accepted script has the same fate in two sequences. -/
theorem abreast_more (h : parse .script 0 text names = (.ok es, names')) (limit k : Nat)
    {p q : Pending} (hp : p.elems ≠ []) (hq : q.elems ≠ []) (ps : List Pending) :
    Abreast limit ⟨p :: ps, [], names⟩ ((solidTokens text).map (Token.shift k))
      ⟨{ p with elems := es.reverse.map (Expr.shift k) ++ p.elems } :: ps, [], names'⟩
      ⟨q :: ps, [], names⟩ ((solidTokens text).map (Token.shift k))
      ⟨{ q with elems := es.reverse.map (Expr.shift k) ++ q.elems } :: ps, [], names'⟩ :=
  ((steps_of_parse h).further k).abreast (fun _ h => absurd h hp) fun _ h => absurd h hq

end Parser

end SpanLisp
