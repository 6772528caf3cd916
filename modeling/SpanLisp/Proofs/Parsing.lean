import SpanLisp.Expr.Parser
import SpanLisp.Proofs.Trees

/-!
# What the parser does

`Parser.Reads` lists what one token can do to the state of the parser, and `Parser.step_ok_iff` says
that a step does exactly that.  `Parser.Steps` is a run over several tokens.  A run keeps the state
sound (`State.Sound`) and loses no token: the state determines the tokens that have been read
(`Steps.tokens_eq`).  So the trees of a text have the tokens of the text, and their leaves are what
these tokens dictate (`parse_ok`).
-/

namespace SpanLisp

namespace Parser

/-! ### One token -/

/-- What a token that is not refused does to the state. -/
inductive Reads (mode : Mode) (limit : Nat) (st : State) (t : Token) : State → Prop
  /-- A run of blanks changes nothing. -/
  | blank (hk : t.kind = .blank) : Reads mode limit st t st
  /-- An integer literal that fits. -/
  | integer (hk : t.kind = .integer) (hover : st.lineIsOver mode = false)
      (hfits : Decimal.toNat t.text ≤ maxInteger) :
      Reads mode limit st t (st.add (.integer t.span (Int64.ofNat (Decimal.toNat t.text))))
  /-- A string literal. -/
  | string (hk : t.kind = .string) (hover : st.lineIsOver mode = false) :
      Reads mode limit st t (st.add (.string t.span))
  /-- A word, which may be new to the interner. -/
  | word (hk : t.kind = .symbol) (hover : st.lineIsOver mode = false) :
      Reads mode limit st t
        ({ st with names := (wordAt st.atHead t.span t.text st.names).2 }.add
          (wordAt st.atHead t.span t.text st.names).1)
  /-- An opening delimiter within the limit. -/
  | opening (d : Delim) (hk : t.kind = .opening d) (hover : st.lineIsOver mode = false)
      (hd : d ≠ .brace) (hlimit : ¬ (0 < limit ∧ limit < st.pending.length + 1)) :
      Reads mode limit st t { st with pending := ⟨d, t.span.lo, []⟩ :: st.pending }
  /-- A closing delimiter that matches the innermost open one. -/
  | closing (p : Pending) (ps : List Pending) (hp : st.pending = p :: ps)
      (hk : t.kind = .closing p.delim) (hover : st.lineIsOver mode = false) :
      Reads mode limit st t
        ({ st with pending := ps }.add (sequence p.delim ⟨p.lo, t.span.hi⟩ p.elems.reverse))

theorem step_blank {mode : Mode} {limit : Nat} {st : State} {t : Token} (hk : t.kind = .blank) :
    step mode limit st t = .ok st := by
  unfold step
  rw [if_pos hk]

theorem step_over {mode : Mode} {limit : Nat} {st : State} {t : Token} (hk : t.kind ≠ .blank)
    (hover : st.lineIsOver mode = true) :
    step mode limit st t = .error ⟨.expectedEndOfLine, t.span⟩ := by
  unfold step
  rw [if_neg hk, if_pos hover]

/-- A token is read, or it is refused and blamed for it. -/
theorem step_cases (mode : Mode) (limit : Nat) (st : State) (t : Token) :
    (∃ st', step mode limit st t = .ok st' ∧ Reads mode limit st t st') ∨
      ∃ kind, step mode limit st t = .error ⟨kind, t.span⟩ := by
  by_cases hblank : t.kind = .blank
  · exact .inl ⟨st, step_blank hblank, .blank hblank⟩
  by_cases hover : st.lineIsOver mode = true
  · exact .inr ⟨_, step_over hblank hover⟩
  have hover' := Bool.eq_false_iff.2 hover
  unfold step
  rw [if_neg hblank, if_neg hover]
  cases hk : t.kind with
  | blank => exact absurd hk hblank
  | integer =>
    by_cases hfits : Decimal.toNat t.text ≤ maxInteger
    · exact .inl ⟨_, by simp only [integer, if_pos hfits]; rfl, .integer hk hover' hfits⟩
    · exact .inr ⟨_, by simp only [integer, if_neg hfits]; rfl⟩
  | string => exact .inl ⟨_, rfl, .string hk hover'⟩
  | symbol => exact .inl ⟨_, rfl, .word hk hover'⟩
  | opening d =>
    simp only
    split_ifs with hd hlimit
    · exact .inr ⟨_, rfl⟩
    · exact .inr ⟨_, rfl⟩
    · exact .inl ⟨_, rfl, .opening d hk hover' hd hlimit⟩
  | closing d =>
    cases hp : st.pending with
    | nil => exact .inr ⟨_, rfl⟩
    | cons p ps =>
      simp only
      split_ifs with hd
      · exact .inr ⟨_, rfl⟩
      · exact .inl ⟨_, rfl, .closing p ps hp (by rw [hk, Decidable.not_not.1 hd]) hover'⟩

theorem Reads.step_eq {mode : Mode} {limit : Nat} {st st' : State} {t : Token}
    (h : Reads mode limit st t st') : step mode limit st t = .ok st' := by
  cases h with
  | blank hk => exact step_blank hk
  | integer hk hover hfits => simp [step, hk, hover, Parser.integer, hfits, Except.map]
  | string hk hover => simp [step, hk, hover]
  | word hk hover => simp [step, hk, hover]
  | opening d hk hover hd hlimit => simp only [step, hk, hover, hd, hlimit]; simp
  | closing p ps hp hk hover => simp [step, hk, hover, hp]

theorem step_ok_iff {mode : Mode} {limit : Nat} {st st' : State} {t : Token} :
    step mode limit st t = .ok st' ↔ Reads mode limit st t st' := by
  refine ⟨fun h => ?_, Reads.step_eq⟩
  obtain ⟨st₁, hstep, hread⟩ | ⟨kind, hstep⟩ := step_cases mode limit st t
  · rw [hstep] at h
    cases h
    exact hread
  · rw [hstep] at h
    cases h

theorem span_of_step_error {mode : Mode} {limit : Nat} {st : State} {t : Token} {e : SyntaxError}
    (h : step mode limit st t = .error e) : e.span = t.span := by
  obtain ⟨st', hstep, -⟩ | ⟨kind, hstep⟩ := step_cases mode limit st t
  · rw [hstep] at h
    cases h
  · rw [hstep] at h
    cases h
    rfl

/-! ### Words -/

theorem extends_wordAt (head : Bool) (span : Span) (text : Bytes) (names : Interner) :
    names.Extends (wordAt head span text names).2 := by
  unfold wordAt
  split
  · exact Interner.extends_intern _ _
  · unfold word
    split_ifs
    · exact Interner.Extends.refl _
    · exact Interner.Extends.refl _
    · exact Interner.Extends.refl _
    · split
      · exact Interner.extends_intern _ _
      · exact Interner.extends_intern _ _

theorem tokens_wordAt (source : Bytes) (head : Bool) (span : Span) (text : Bytes)
    (names : Interner) :
    (wordAt head span text names).1.tokens source = [Expr.leafToken source .symbol span] := by
  unfold wordAt
  split
  · rfl
  · unfold word
    split_ifs
    · rfl
    · rfl
    · rfl
    · split
      · rfl
      · rfl

theorem faithful_word {source : Bytes} {head : Bool} {span : Span} {names : Interner}
    (hop : head = true → Operator.ofName? (span.of source) = none) :
    (word span (span.of source) names).1.Faithful source (word span (span.of source) names).2
      head := by
  unfold word
  split_ifs with htrue hfalse hnil
  · exact htrue
  · exact hfalse
  · exact hnil
  · split
    · rename_i b bs htext
      exact ⟨b :: bs, List.cons_ne_nil _ _, htext, Interner.find?_intern _ _⟩
    · rename_i hkey
      refine ⟨?_, ?_, hop, Interner.find?_intern _ _⟩
      · rintro (h | h | h)
        · exact htrue h
        · exact hfalse h
        · exact hnil h
      · rintro ⟨name, hne, htext⟩
        obtain ⟨b, bs, rfl⟩ := List.exists_cons_of_ne_nil hne
        exact hkey b bs htext

theorem faithful_wordAt {source : Bytes} {span : Span} {text : Bytes}
    (htext : span.of source = text) (head : Bool) (names : Interner) :
    (wordAt head span text names).1.Faithful source (wordAt head span text names).2 head := by
  subst htext
  unfold wordAt
  cases head with
  | false => exact faithful_word (fun h => absurd h Bool.false_ne_true)
  | true =>
    rw [if_pos rfl]
    cases hop : Operator.ofName? (span.of source) with
    | some op => exact ⟨rfl, hop⟩
    | none => exact faithful_word fun _ => hop

/-! ### The tokens of a state -/

/-- The tokens of an open sequence. -/
def Pending.tokens (source : Bytes) (p : Pending) : List Token :=
  Expr.openToken p.delim p.lo :: Expr.tokensAll source p.elems.reverse

/-- The tokens that led to a state. -/
def State.tokens (source : Bytes) (st : State) : List Token :=
  Expr.tokensAll source st.complete.reverse ++ st.pending.reverse.flatMap (Pending.tokens source)

theorem State.tokens_add (source : Bytes) (st : State) (e : Expr) :
    (st.add e).tokens source = st.tokens source ++ e.tokens source := by
  unfold State.add State.tokens
  cases st.pending with
  | nil => simp [Expr.tokensAll_concat]
  | cons p ps => simp [Pending.tokens, Expr.tokensAll_concat]

theorem tokens_sequence {d : Delim} (hd : d ≠ .brace) (source : Bytes) (s : Span) (xs : List Expr) :
    (sequence d s xs).tokens source =
      Expr.openToken d s.lo :: Expr.tokensAll source xs ++ [Expr.closeToken d s.hi] := by
  cases d with
  | paren => rfl
  | bracket => rfl
  | brace => exact absurd rfl hd

/-- The elements read so far are faithful, and no brace is open. -/
structure State.Sound (source : Bytes) (st : State) : Prop where
  /-- No brace is open. -/
  noBrace : ∀ p ∈ st.pending, p.delim ≠ .brace
  /-- The elements of the open sequences are faithful. -/
  pending : ∀ p ∈ st.pending,
    Expr.FaithfulAll source st.names (p.delim = .paren) p.elems.reverse
  /-- The complete expressions are faithful. -/
  complete : Expr.FaithfulAll source st.names false st.complete.reverse

theorem State.Sound.withNames {source : Bytes} {st : State} (h : st.Sound source)
    {names : Interner} (hn : st.names.Extends names) : { st with names := names }.Sound source where
  noBrace := h.noBrace
  pending p hp := (h.pending p hp).mono hn
  complete := h.complete.mono hn

theorem State.Sound.add {source : Bytes} {st : State} (h : st.Sound source) {e : Expr}
    (he : e.Faithful source st.names st.atHead) : (st.add e).Sound source := by
  obtain ⟨pending, complete, names⟩ := st
  cases pending with
  | nil =>
    refine ⟨h.noBrace, h.pending, ?_⟩
    simp only [State.add, List.reverse_cons]
    exact Expr.faithfulAll_concat.2 ⟨h.complete, he⟩
  | cons p ps =>
    refine ⟨?_, ?_, h.complete⟩
    · intro p' hp'
      rcases List.mem_cons.1 hp' with rfl | hp'
      · exact h.noBrace p List.mem_cons_self
      · exact h.noBrace p' (List.mem_cons_of_mem _ hp')
    · intro p' hp'
      rcases List.mem_cons.1 hp' with rfl | hp'
      · simp only [List.reverse_cons]
        refine Expr.faithfulAll_concat.2 ⟨h.pending p List.mem_cons_self, ?_⟩
        have hhead : (decide (p.delim = .paren) && p.elems.reverse.isEmpty) =
            State.atHead ⟨p :: ps, complete, names⟩ := by
          obtain ⟨d, lo, elems⟩ := p
          cases d <;> cases elems <;> simp [State.atHead]
        rw [hhead]
        exact he
      · exact h.pending p' (List.mem_cons_of_mem _ hp')

/-! ### What a token adds -/

theorem State.names_add (st : State) (e : Expr) : (st.add e).names = st.names := by
  unfold State.add
  split <;> rfl

theorem length_of_fits {source : Bytes} {t : Token} (h : t.Fits source) :
    t.span.hi = t.span.lo + t.text.length := by
  have hlen := congrArg List.length h.text_eq
  have := h.nonempty
  have := h.bounded
  simp only [Span.of, List.length_take, List.length_drop] at hlen
  omega

theorem leafToken_of_fits {source : Bytes} {t : Token} (h : t.Fits source) {kind : Token.Kind}
    (hk : t.kind = kind) : Expr.leafToken source kind t.span = t := by
  unfold Expr.leafToken
  rw [h.text_eq, ← hk]

theorem openToken_of_fits {source : Bytes} {t : Token} (h : t.Fits source) {d : Delim}
    (hk : t.kind = .opening d) : Expr.openToken d t.span.lo = t := by
  have hlex := h.lexeme
  have hlen := length_of_fits h
  rw [hk] at hlex
  have hone : d.opening.length = 1 := by cases d <;> rfl
  rw [hlex, hone] at hlen
  obtain ⟨kind, ⟨lo, hi⟩, text⟩ := t
  simp only at hk hlen hlex
  subst hk hlen hlex
  rfl

theorem closeToken_of_fits {source : Bytes} {t : Token} (h : t.Fits source) {d : Delim}
    (hk : t.kind = .closing d) : Expr.closeToken d t.span.hi = t := by
  have hlex := h.lexeme
  have hlen := length_of_fits h
  rw [hk] at hlex
  have hone : d.closing.length = 1 := by cases d <;> rfl
  rw [hlex, hone] at hlen
  obtain ⟨kind, ⟨lo, hi⟩, text⟩ := t
  simp only at hk hlen hlex
  subst hk hlen hlex
  rfl

/-- Blanks leave no trace in the trees; every other token stands for itself. -/
def trace (t : Token) : List Token := if t.kind = .blank then [] else [t]

theorem trace_of_ne {t : Token} {kind : Token.Kind} (hk : t.kind = kind) (hne : kind ≠ .blank) :
    trace t = [t] := by
  unfold trace
  rw [if_neg (by rw [hk]; exact hne)]

variable {source : Bytes} {mode : Mode} {limit : Nat} {st st' : State} {t : Token}

theorem Reads.names_extends (h : Reads mode limit st t st') : st.names.Extends st'.names := by
  cases h with
  | word hk hover =>
    rw [State.names_add]
    exact extends_wordAt _ _ _ _
  | blank hk => exact Interner.Extends.refl _
  | opening d hk hover hd hlimit => exact Interner.Extends.refl _
  | integer hk hover hfits | string hk hover | closing p ps hp hk hover =>
    rw [State.names_add]
    exact Interner.Extends.refl _

theorem Reads.sound (h : Reads mode limit st t st') (hs : st.Sound source) (ht : t.Fits source) :
    st'.Sound source := by
  cases h with
  | blank hk => exact hs
  | integer hk hover hfits =>
    refine hs.add ?_
    show (Int64.ofNat (Decimal.toNat t.text)).toInt = Decimal.toNat (t.span.of source)
    rw [ht.text_eq, Int64.toInt_ofNat_of_lt]
    unfold maxInteger at hfits
    omega
  | string hk hover => exact hs.add trivial
  | word hk hover =>
    exact (hs.withNames (extends_wordAt _ _ _ _)).add (faithful_wordAt ht.text_eq _ _)
  | opening d hk hover hd hlimit =>
    refine ⟨?_, ?_, hs.complete⟩
    · intro p hp
      rcases List.mem_cons.1 hp with rfl | hp
      · exact hd
      · exact hs.noBrace p hp
    · intro p hp
      rcases List.mem_cons.1 hp with rfl | hp
      · trivial
      · exact hs.pending p hp
  | closing p ps hp hk hover =>
    have hmem : p ∈ st.pending := by rw [hp]; exact List.mem_cons_self
    have hsub : ∀ p' ∈ ps, p' ∈ st.pending := fun p' h' => by
      rw [hp]; exact List.mem_cons_of_mem _ h'
    have hrest : State.Sound source { st with pending := ps } :=
      ⟨fun p' h' => hs.noBrace p' (hsub p' h'), fun p' h' => hs.pending p' (hsub p' h'),
        hs.complete⟩
    refine hrest.add ?_
    have helems := hs.pending p hmem
    have hbrace := hs.noBrace p hmem
    cases hd : p.delim with
    | paren =>
      rw [hd] at helems
      exact helems
    | bracket =>
      rw [hd] at helems
      exact helems
    | brace => exact absurd hd hbrace

theorem Reads.tokens_eq (h : Reads mode limit st t st') (hs : st.Sound source)
    (ht : t.Fits source) : st'.tokens source = st.tokens source ++ trace t := by
  cases h with
  | blank hk =>
    unfold trace
    rw [if_pos hk, List.append_nil]
  | integer hk hover hfits =>
    rw [trace_of_ne hk (by decide), State.tokens_add, Expr.tokens, leafToken_of_fits ht hk]
  | string hk hover =>
    rw [trace_of_ne hk (by decide), State.tokens_add, Expr.tokens, leafToken_of_fits ht hk]
  | word hk hover =>
    rw [trace_of_ne hk (by decide), State.tokens_add, tokens_wordAt, leafToken_of_fits ht hk]
    rfl
  | opening d hk hover hd hlimit =>
    rw [trace_of_ne hk (fun h => Token.Kind.noConfusion h)]
    simp only [State.tokens, List.reverse_cons, List.flatMap_append, List.flatMap_cons,
      List.flatMap_nil, Pending.tokens, openToken_of_fits ht hk, List.append_assoc]
    rfl
  | closing p ps hp hk hover =>
    have hmem : p ∈ st.pending := by rw [hp]; exact List.mem_cons_self
    rw [trace_of_ne hk (fun h => Token.Kind.noConfusion h), State.tokens_add,
      tokens_sequence (hs.noBrace p hmem), closeToken_of_fits ht hk]
    simp only [State.tokens, hp, List.reverse_cons, List.flatMap_append, List.flatMap_cons,
      List.flatMap_nil, Pending.tokens, List.append_assoc, List.append_nil]

/-! ### Runs -/

/-- A run over several tokens, none of which is refused. -/
def Steps (mode : Mode) (limit : Nat) : State → List Token → State → Prop
  | st, [], st' => st' = st
  | st, t :: ts, st'' => ∃ st', Reads mode limit st t st' ∧ Steps mode limit st' ts st''

theorem Steps.names_extends :
    ∀ {ts : List Token} {st st' : State}, Steps mode limit st ts st' →
      st.names.Extends st'.names
  | [], _, _, rfl => Interner.Extends.refl _
  | _ :: _, _, _, ⟨_, hread, hsteps⟩ => hread.names_extends.trans hsteps.names_extends

theorem Steps.sound :
    ∀ {ts : List Token} {st st' : State}, Steps mode limit st ts st' → st.Sound source →
      (∀ t ∈ ts, t.Fits source) → st'.Sound source
  | [], _, _, rfl, hs, _ => hs
  | t :: _, _, _, ⟨_, hread, hsteps⟩, hs, hts =>
    hsteps.sound (hread.sound hs (hts t List.mem_cons_self))
      fun u hu => hts u (List.mem_cons_of_mem _ hu)

/-- A run loses no token. -/
theorem Steps.tokens_eq :
    ∀ {ts : List Token} {st st' : State}, Steps mode limit st ts st' → st.Sound source →
      (∀ t ∈ ts, t.Fits source) → st'.tokens source = st.tokens source ++ ts.flatMap trace
  | [], _, _, rfl, _, _ => by simp
  | t :: _, _, _, ⟨_, hread, hsteps⟩, hs, hts => by
    have ht := hts t List.mem_cons_self
    rw [hsteps.tokens_eq (hread.sound hs ht) fun u hu => hts u (List.mem_cons_of_mem _ hu),
      hread.tokens_eq hs ht, List.flatMap_cons, List.append_assoc]

theorem flatMap_trace (ts : List Token) : ts.flatMap trace = ts.filter (·.kind ≠ .blank) := by
  induction ts with
  | nil => rfl
  | cons t ts ih =>
    rw [List.flatMap_cons, ih]
    by_cases hk : t.kind = .blank <;> simp [trace, hk]

theorem run_append {size : Nat} {failure : Option SyntaxError} {us : List Token} :
    ∀ {ts : List Token} {st st' : State}, Steps mode limit st ts st' →
      run mode limit size failure (ts ++ us) st = run mode limit size failure us st'
  | [], _, _, rfl => rfl
  | _ :: _, _, _, ⟨_, hread, hsteps⟩ => by
    rw [List.cons_append, run, step_ok_iff.2 hread]
    exact run_append hsteps

theorem run_of_steps {size : Nat} {failure : Option SyntaxError} {ts : List Token}
    (h : Steps mode limit st ts st') :
    run mode limit size failure ts st = (finish mode size failure st', st'.names) := by
  rw [← List.append_nil ts, run_append h, run]

/-- A run ends at the end of the tokens or at a refused one. -/
theorem run_cases (mode : Mode) (limit size : Nat) (failure : Option SyntaxError) :
    ∀ (ts : List Token) (st : State),
      (∃ st', Steps mode limit st ts st' ∧
        run mode limit size failure ts st = (finish mode size failure st', st'.names)) ∨
      ∃ us t vs st' e, ts = us ++ t :: vs ∧ Steps mode limit st us st' ∧
        step mode limit st' t = .error e ∧
        run mode limit size failure ts st = (.error e, st'.names)
  | [], st => .inl ⟨st, rfl, rfl⟩
  | t :: ts, st => by
    cases hstep : step mode limit st t with
    | error e =>
      refine .inr ⟨[], t, ts, st, e, rfl, rfl, hstep, ?_⟩
      rw [run, hstep]
    | ok st₁ =>
      have hread := step_ok_iff.1 hstep
      have hrun : run mode limit size failure (t :: ts) st =
          run mode limit size failure ts st₁ := by rw [run, hstep]
      rw [hrun]
      rcases run_cases mode limit size failure ts st₁ with ⟨st', hsteps, h⟩ |
        ⟨us, u, vs, st', e, rfl, hsteps, herr, h⟩
      · exact .inl ⟨st', ⟨st₁, hread, hsteps⟩, h⟩
      · exact .inr ⟨t :: us, u, vs, st', e, rfl, ⟨st₁, hread, hsteps⟩, herr, h⟩

/-! ### Whole texts -/

theorem sound_start (source : Bytes) (names : Interner) : State.Sound source { names := names } :=
  ⟨by simp, by simp, trivial⟩

/-- Reading a text succeeds with the complete expressions of a run over all its tokens. -/
theorem parse_ok_iff {text : Bytes} {names names' : Interner} {es : List Expr} :
    parse mode limit text names = (.ok es, names') ↔
      (tokens text).2 = none ∧ ∃ st', Steps mode limit { names := names } (tokens text).1 st' ∧
        st'.pending = [] ∧ st'.complete.reverse = es ∧ st'.names = names' := by
  unfold parse
  constructor
  · intro h
    rcases run_cases mode limit text.length (tokens text).2 (tokens text).1 { names := names } with
      ⟨st', hsteps, hrun⟩ | ⟨us, t, vs, st', e, -, -, -, hrun⟩
    · simp only at h
      rw [hrun, Prod.mk.injEq] at h
      obtain ⟨hfinish, rfl⟩ := h
      unfold finish at hfinish
      split at hfinish
      · cases hfinish
      · rename_i hnone
        split_ifs at hfinish with hpending
        cases hfinish
        exact ⟨hnone, st', hsteps, List.isEmpty_iff.1 hpending, rfl, rfl⟩
    · simp only at h
      rw [hrun] at h
      cases h
  · rintro ⟨hnone, st', hsteps, hpending, rfl, rfl⟩
    simp only
    rw [run_of_steps hsteps, hnone]
    simp [finish, hpending]

/-- The trees of a text have exactly its tokens, blanks left out, and are faithful to them. -/
theorem parse_ok {text : Bytes} {names names' : Interner} {es : List Expr}
    (h : parse mode limit text names = (.ok es, names')) :
    Expr.tokensAll text es = (tokens text).1.filter (·.kind ≠ .blank) ∧
      Expr.FaithfulAll text names' false es := by
  obtain ⟨-, st', hsteps, hpending, rfl, rfl⟩ := parse_ok_iff.1 h
  have hfits := (laid_tokens text).fits
  have hsound := hsteps.sound (sound_start text names) hfits
  have htokens := hsteps.tokens_eq (sound_start text names) hfits
  refine ⟨?_, hsound.complete⟩
  rw [flatMap_trace] at htokens
  simpa [State.tokens, hpending, Expr.tokensAll] using htokens

theorem fits_of_parse {text : Bytes} {names names' : Interner} {es : List Expr}
    (h : parse mode limit text names = (.ok es, names')) :
    ∀ t ∈ Expr.tokensAll text es, t.Fits text := by
  intro t ht
  rw [(parse_ok h).1] at ht
  exact (laid_tokens text).fits t (List.mem_filter.1 ht).1

/-- Reading a text adds names, whether it succeeds or fails. -/
theorem extends_parse (mode : Mode) (limit : Nat) (text : Bytes) (names : Interner) :
    names.Extends (parse mode limit text names).2 := by
  unfold parse
  rcases run_cases mode limit text.length (tokens text).2 (tokens text).1 { names := names } with
    ⟨st', hsteps, hrun⟩ | ⟨us, t, vs, st', e, -, hsteps, -, hrun⟩
  · simp only [hrun]
    exact hsteps.names_extends
  · simp only [hrun]
    exact hsteps.names_extends

/-- The place of a syntax error lies within the text. -/
theorem parse_error {text : Bytes} {names names' : Interner} {e : SyntaxError}
    (h : parse mode limit text names = (.error e, names')) : e.span.Within text.length := by
  unfold parse at h
  rcases run_cases mode limit text.length (tokens text).2 (tokens text).1 { names := names } with
    ⟨st', hsteps, hrun⟩ | ⟨us, t, vs, st', e', hsplit, hsteps, herr, hrun⟩
  · simp only at h
    rw [hrun, Prod.mk.injEq] at h
    obtain ⟨hfinish, rfl⟩ := h
    unfold finish at hfinish
    split at hfinish
    · rename_i e' he'
      have hwithin := within_of_tokens_error he'
      split_ifs at hfinish <;> cases hfinish <;> exact hwithin
    · split_ifs at hfinish
      cases hfinish
      exact ⟨Nat.le_refl _, Nat.le_refl _⟩
  · simp only at h
    rw [hrun] at h
    cases h
    have hmem : t ∈ (tokens text).1 := by rw [hsplit]; simp
    rw [span_of_step_error herr]
    exact ((laid_tokens text).fits t hmem).within

/-- The nodes of the trees of a text lie within the text. -/
theorem spans_of_parse {text : Bytes} {names names' : Interner} {es : List Expr}
    (h : parse mode limit text names = (.ok es, names')) :
    ∀ n ∈ Expr.nodesAll es, n.Spans text.length := by
  obtain ⟨htokens, hfaithful⟩ := parse_ok h
  refine Expr.spansAll_of_tokens hfaithful ?_
  rw [htokens]
  exact (laid_tokens text).sublist List.filter_sublist

end Parser

/-! ### Lines -/

theorem parseLine_of_parse {limit : Nat} {text : Bytes} {names names' : Interner} {es : List Expr}
    (h : Parser.parse .line limit text names = (.ok es, names')) :
    parseLine limit text names = (.ok (es.headD (.nil (.point text.length))), names') := by
  unfold parseLine
  rw [h]
  rfl

theorem parse_of_parseLine {limit : Nat} {text : Bytes} {names names' : Interner} {e : Expr}
    (h : parseLine limit text names = (.ok e, names')) :
    ∃ es, Parser.parse .line limit text names = (.ok es, names') ∧
      e = es.headD (.nil (.point text.length)) := by
  unfold parseLine at h
  rw [Prod.mk.injEq] at h
  obtain ⟨hok, rfl⟩ := h
  cases hr : (Parser.parse .line limit text names).1 with
  | error err =>
    rw [hr] at hok
    cases hok
  | ok es =>
    rw [hr] at hok
    cases hok
    exact ⟨es, Prod.ext hr rfl, rfl⟩

theorem parse_of_parseLine_error {limit : Nat} {text : Bytes} {names names' : Interner}
    {e : SyntaxError} (h : parseLine limit text names = (.error e, names')) :
    Parser.parse .line limit text names = (.error e, names') := by
  unfold parseLine at h
  rw [Prod.mk.injEq] at h
  obtain ⟨herror, rfl⟩ := h
  cases hr : (Parser.parse .line limit text names).1 with
  | error err =>
    rw [hr] at herror
    cases herror
    exact Prod.ext hr rfl
  | ok es =>
    rw [hr] at herror
    cases herror

/-- The expression was read from the text, as a line or as a part of a script. -/
def Expr.ReadFrom (text : Bytes) (e : Expr) : Prop :=
  ∃ limit names, (parseLine limit text names).1 = .ok e ∨
    ∃ es, (parseAll limit text names).1 = .ok es ∧ e ∈ es

theorem Expr.mem_nodesAll {e n : Expr} {es : List Expr} (he : e ∈ es) (hn : n ∈ e.nodes) :
    n ∈ nodesAll es := by
  induction es with
  | nil => cases he
  | cons x xs ih =>
    rcases List.mem_cons.1 he with rfl | he
    · exact List.mem_append_left _ hn
    · exact List.mem_append_right _ (ih he)

/-- Whatever is read from a text lies within it. -/
theorem Expr.ReadFrom.within {text : Bytes} {e : Expr} (h : e.ReadFrom text) :
    ∀ n ∈ e.nodes, n.span.Within text.length := by
  have hspans {n : Expr} (hn : n.Spans text.length) : n.span.Within text.length :=
    ⟨Nat.le_of_lt hn.1, hn.2⟩
  intro n hn
  obtain ⟨limit, names, hline | ⟨es, hall, he⟩⟩ := h
  · obtain ⟨es, hparse, rfl⟩ := parse_of_parseLine (Prod.ext hline rfl)
    cases es with
    | nil =>
      obtain rfl := List.mem_singleton.1 hn
      exact ⟨Nat.le_refl _, Nat.le_refl _⟩
    | cons x xs =>
      exact hspans (Parser.spans_of_parse hparse n (mem_nodesAll List.mem_cons_self hn))
  · have hparse : Parser.parse .script limit text names = (.ok es, _) := Prod.ext hall rfl
    exact hspans (Parser.spans_of_parse hparse n (mem_nodesAll he hn))

end SpanLisp
