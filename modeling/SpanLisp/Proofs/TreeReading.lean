import SpanLisp.Proofs.Addresses
import SpanLisp.Proofs.ReadingInside

/-!
# Reading the tokens of a tree

The parser reads the tokens of a faithful tree as that tree, wherever it meets them
(`steps_tokens`).  The names must know the words among them already, as they do once a text has been
read (`settled_of_parse`); then nothing is interned on the way.
-/

namespace SpanLisp

namespace Parser

/-! ### Words that are known -/

/-- The names left behind by a word do not depend on where it stands. -/
theorem names_wordAt (head head' : Bool) (span : Span) (text : Bytes) (names : Interner) :
    (wordAt head span text names).2 = (wordAt head' span text names).2 := by
  cases hop : Operator.ofName? text with
  | none => rw [wordAt_of_ofName?_eq_none hop, wordAt_of_ofName?_eq_none hop]
  | some op =>
    have hnames (head : Bool) : (wordAt head span text names).2 = (names.intern text).2 := by
      cases head with
      | false => rw [wordAt_false_of_ofName? hop]
      | true => simp [wordAt, hop]
    rw [hnames, hnames]

/-- If the token is a word, then reading it adds no name. -/
def Settled (names : Interner) (t : Token) : Prop :=
  t.kind = .symbol → ∀ head, (wordAt head t.span t.text names).2 = names

theorem Reads.settled {mode : Mode} {limit : Nat} {st st' : State} {t : Token} {later : Interner}
    (h : Reads mode limit st t st') (hn : st'.names.Extends later) : Settled later t := by
  intro hk head
  cases h with
  | word =>
    rw [State.names_add] at hn
    rw [names_wordAt head st.atHead, wordAt_again hn]
  | blank hk' | integer hk' | string hk' | opening _ hk' | closing _ _ _ hk' =>
    cases hk'.symm.trans hk

theorem Steps.settled {mode : Mode} {limit : Nat} {later : Interner} :
    ∀ {ts : List Token} {st st' : State}, Steps mode limit st ts st' →
      st'.names.Extends later → ∀ t ∈ ts, Settled later t
  | t :: ts, _, _, ⟨_, hread, hsteps⟩, hn, u, hu => by
    rcases List.mem_cons.1 hu with rfl | hu
    · exact hread.settled (hsteps.names_extends.trans hn)
    · exact hsteps.settled hn u hu

/-- Once a text has been read, its words are known. -/
theorem settled_of_parse {mode : Mode} {limit : Nat} {text : Bytes} {names names' : Interner}
    {es : List Expr} (h : parse mode limit text names = (.ok es, names')) :
    ∀ t ∈ (tokens text).1, Settled names' t := by
  obtain ⟨-, st', hsteps, -, -, rfl⟩ := parse_ok_iff.1 h
  exact hsteps.settled (Interner.Extends.refl _)

/-! ### One leaf -/

variable {source : Bytes} {names : Interner} {head : Bool}

theorem ofName?_of_keyword {w : Bytes} (h : Expr.IsKeyword w) : Operator.ofName? w = none := by
  obtain ⟨name, -, rfl⟩ := h
  rfl

theorem not_literal_of_keyword {w : Bytes} (h : Expr.IsKeyword w) : ¬ Expr.IsLiteral w := by
  obtain ⟨name, -, rfl⟩ := h
  rintro (hw | hw | hw) <;> cases hw

theorem word_of_keyword {name : Bytes} (hne : name ≠ []) (span : Span) (names : Interner) :
    word span (0x3a :: name) names =
      (.keyword span (names.intern name).1, (names.intern name).2) := by
  have hlit := not_literal_of_keyword ⟨name, hne, rfl⟩
  obtain ⟨b, bs, rfl⟩ := List.exists_cons_of_ne_nil hne
  unfold word
  rw [if_neg fun h => hlit (.inl h), if_neg fun h => hlit (.inr (.inl h)),
    if_neg fun h => hlit (.inr (.inr h))]
  rfl

theorem word_of_symbol {w : Bytes} (hlit : ¬ Expr.IsLiteral w) (hkey : ¬ Expr.IsKeyword w)
    (span : Span) (names : Interner) :
    word span w names = (.symbol span (names.intern w).1, (names.intern w).2) := by
  unfold word
  rw [if_neg fun h => hlit (.inl h), if_neg fun h => hlit (.inr (.inl h)),
    if_neg fun h => hlit (.inr (.inr h))]
  split
  · exact absurd ⟨_, List.cons_ne_nil _ _, rfl⟩ hkey
  · rfl

theorem wordAt_of_head {text : Bytes} (h : head = true → Operator.ofName? text = none)
    (span : Span) (names : Interner) : wordAt head span text names = word span text names := by
  cases head with
  | false => rfl
  | true => exact wordAt_of_ofName?_eq_none (h rfl) true span names

/-- A word is read as the leaf that its bytes dictate. -/
theorem wordAt_of_faithful {e : Expr} (h : e.Faithful source names head)
    (htoken : e.tokens source = [Expr.leafToken source .symbol e.span]) :
    (wordAt head e.span (e.span.of source) names).1 = e := by
  cases e with
  | list | vector | integer | string | unlisted => cases htoken
  | bool s b =>
    show (wordAt head s (s.of source) names).1 = _
    rw [show s.of source = Expr.boolText b from h]
    cases head <;> cases b <;> rfl
  | nil s =>
    show (wordAt head s (s.of source) names).1 = _
    rw [show s.of source = utf8 "nil" from h]
    cases head <;> rfl
  | keyword s sym =>
    obtain ⟨name, hne, htext, hfind⟩ := h
    show (wordAt head s (s.of source) names).1 = _
    rw [htext, wordAt_of_ofName?_eq_none (ofName?_of_keyword ⟨name, hne, rfl⟩), word_of_keyword hne,
      Interner.intern_of_find? hfind]
  | operator s op =>
    obtain ⟨rfl, hop⟩ := h
    simp only [wordAt, Expr.span, if_pos, hop]
  | symbol s sym =>
    obtain ⟨hlit, hkey, hop, hfind⟩ := h
    show (wordAt head s (s.of source) names).1 = _
    rw [wordAt_of_head hop, word_of_symbol hlit hkey, Interner.intern_of_find? hfind]

theorem integer_of_faithful {s : Span} {n : Int64}
    (h : (Expr.integer s n).Faithful source names head) :
    Decimal.toNat (s.of source) ≤ maxInteger ∧ Int64.ofNat (Decimal.toNat (s.of source)) = n := by
  have hvalue : n.toInt = Decimal.toNat (s.of source) := h
  have hlt := n.toInt_lt
  constructor
  · unfold maxInteger
    omega
  · rw [← Int64.ofInt_toInt n, hvalue]
    rfl

/-! ### Trees -/

theorem steps_word {e : Expr} {st : State} (h : e.Faithful source st.names st.atHead)
    (htoken : e.tokens source = [Expr.leafToken source .symbol e.span])
    (hsettled : ∀ t ∈ e.tokens source, Settled st.names t) :
    Steps .script 0 st (e.tokens source) (st.add e) := by
  rw [htoken] at hsettled ⊢
  have hread : Reads .script 0 st (Expr.leafToken source .symbol e.span) _ :=
    .word rfl (lineIsOver_script st)
  refine ⟨_, hread, ?_⟩
  have hnames : (wordAt st.atHead e.span (e.span.of source) st.names).2 = st.names :=
    hsettled _ List.mem_cons_self rfl st.atHead
  simp only [Expr.leafToken, wordAt_of_faithful h htoken, hnames]
  rfl

/-- Between delimiters, the elements are read into a new sequence. -/
theorem steps_between {d : Delim} (hd : d ≠ .brace) {st : State} {s : Span} {xs : List Expr}
    (h : Steps .script 0 { st with pending := ⟨d, s.lo, []⟩ :: st.pending }
      (Expr.tokensAll source xs) { st with pending := ⟨d, s.lo, xs.reverse⟩ :: st.pending }) :
    Steps .script 0 st
      (Expr.openToken d s.lo :: Expr.tokensAll source xs ++ [Expr.closeToken d s.hi])
      (st.add (sequence d s xs)) := by
  refine ⟨_, .opening d rfl (lineIsOver_script st) hd (by omega), h.append ?_⟩
  refine ⟨_, .closing _ st.pending rfl rfl (lineIsOver_script _), ?_⟩
  simp only [List.reverse_reverse]
  rfl

theorem atHead_of_elems (d : Delim) (lo : Nat) (x : Expr) (xs : List Expr) (ps : List Pending)
    (complete : List Expr) (names : Interner) :
    State.atHead ⟨⟨d, lo, x :: xs⟩ :: ps, complete, names⟩ = false := by
  cases d <;> rfl

mutual

/-- The tokens of a faithful tree are read as that tree, whatever is open around it. -/
theorem steps_tokens {source : Bytes} : ∀ {e : Expr} {st : State},
    e.Faithful source st.names st.atHead → (∀ t ∈ e.tokens source, Settled st.names t) →
      Steps .script 0 st (e.tokens source) (st.add e)
  | .list s xs, ⟨pending, complete, names⟩, h, hsettled => by
    have helems : Steps .script 0 ⟨⟨.paren, s.lo, []⟩ :: pending, complete, names⟩
        (Expr.tokensAll source xs) ⟨⟨.paren, s.lo, xs.reverse ++ []⟩ :: pending, complete, names⟩ :=
      steps_tokensAll h
        fun t ht => hsettled t (List.mem_cons_of_mem _ (List.mem_append_left _ ht))
    rw [List.append_nil] at helems
    exact @steps_between source .paren (by decide) ⟨pending, complete, names⟩ s xs helems
  | .vector s xs, ⟨pending, complete, names⟩, h, hsettled => by
    have helems : Steps .script 0 ⟨⟨.bracket, s.lo, []⟩ :: pending, complete, names⟩
        (Expr.tokensAll source xs)
        ⟨⟨.bracket, s.lo, xs.reverse ++ []⟩ :: pending, complete, names⟩ :=
      steps_tokensAll h
        fun t ht => hsettled t (List.mem_cons_of_mem _ (List.mem_append_left _ ht))
    rw [List.append_nil] at helems
    exact @steps_between source .bracket (by decide) ⟨pending, complete, names⟩ s xs helems
  | .integer s n, st, h, _ => by
    obtain ⟨hfits, hn⟩ := integer_of_faithful h
    have hread : Reads .script 0 st (Expr.leafToken source .integer s) _ :=
      .integer rfl (lineIsOver_script st) hfits
    refine ⟨_, hread, ?_⟩
    simp only [Expr.leafToken, hn]
    rfl
  | .string s, st, _, _ => ⟨_, .string rfl (lineIsOver_script st), rfl⟩
  | .bool .., _, h, hsettled | .keyword .., _, h, hsettled | .nil .., _, h, hsettled
  | .operator .., _, h, hsettled | .symbol .., _, h, hsettled => steps_word h rfl hsettled

theorem steps_tokensAll {source : Bytes} : ∀ {xs : List Expr} {d : Delim} {lo : Nat}
    {elems : List Expr} {ps : List Pending} {complete : List Expr} {names : Interner},
      Expr.FaithfulAll source names (State.atHead ⟨⟨d, lo, elems⟩ :: ps, complete, names⟩) xs →
      (∀ t ∈ Expr.tokensAll source xs, Settled names t) →
      Steps .script 0 ⟨⟨d, lo, elems⟩ :: ps, complete, names⟩ (Expr.tokensAll source xs)
        ⟨⟨d, lo, xs.reverse ++ elems⟩ :: ps, complete, names⟩
  | [], _, _, _, _, _, _, _, _ => rfl
  | x :: xs, d, lo, elems, ps, complete, names, ⟨hx, hxs⟩, hsettled => by
    have hfirst : Steps .script 0 ⟨⟨d, lo, elems⟩ :: ps, complete, names⟩ (x.tokens source)
        ⟨⟨d, lo, x :: elems⟩ :: ps, complete, names⟩ :=
      steps_tokens hx fun t ht => hsettled t (List.mem_append_left _ ht)
    rw [← atHead_of_elems d lo x elems ps complete names] at hxs
    have hrest := steps_tokensAll hxs fun t ht => hsettled t (List.mem_append_right _ ht)
    rw [List.reverse_cons, List.append_assoc, List.singleton_append]
    exact hfirst.append hrest

end

end Parser

end SpanLisp
