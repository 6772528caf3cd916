import SpanLisp.Proofs.Parsing

/-!
# Syntax without places

`Expr.bare` forgets where the nodes of a tree stand and keeps the bytes of its leaves.
`Token.essence` does the same to a token, and forgets the leading zeros of an integer.  The parser
works on essences: where two sequences of tokens have the same essences, blanks left out, it accepts
both or none, and builds trees that differ only in their places (`Steps.alike`).  It also does not
mind names that it is going to meet: reading a text again with the names it left behind gives the
same trees (`parse_again`).
-/

namespace SpanLisp

/-- A syntax tree without places. -/
inductive Bare where
  /-- `true` or `false`. -/
  | bool (b : Bool)
  /-- A decimal literal. -/
  | integer (n : Int64)
  /-- A keyword with its bytes. -/
  | keyword (sym : Symbol) (text : Bytes)
  /-- A sequence in parentheses. -/
  | list (elems : List Bare)
  /-- `nil`, or nothing at all. -/
  | nil
  /-- A special form's name with its bytes. -/
  | operator (op : Operator) (text : Bytes)
  /-- A string literal's bytes, the quotes included. -/
  | string (text : Bytes)
  /-- A name with its bytes. -/
  | symbol (sym : Symbol) (text : Bytes)
  /-- A sequence in square brackets. -/
  | vector (elems : List Bare)
  /-- A node of no known kind. -/
  | unlisted (code : Int)

namespace Expr

mutual

/-- A tree without its places. -/
def bare (source : Bytes) : Expr → Bare
  | bool _ b => .bool b
  | integer _ n => .integer n
  | keyword s sym => .keyword sym (s.of source)
  | list _ xs => .list (bareAll source xs)
  | nil _ => .nil
  | operator s op => .operator op (s.of source)
  | string s => .string (s.of source)
  | symbol s sym => .symbol sym (s.of source)
  | vector _ xs => .vector (bareAll source xs)
  | unlisted _ code => .unlisted code

/-- Several trees without their places. -/
def bareAll (source : Bytes) : List Expr → List Bare
  | [] => []
  | x :: xs => bare source x :: bareAll source xs

end

theorem bareAll_eq_map (source : Bytes) (xs : List Expr) :
    bareAll source xs = xs.map (bare source) := by
  induction xs with
  | nil => rfl
  | cons x xs ih => rw [bareAll, ih, List.map_cons]

theorem bareAll_reverse (source : Bytes) (xs : List Expr) :
    bareAll source xs.reverse = (bareAll source xs).reverse := by
  rw [bareAll_eq_map, bareAll_eq_map, List.map_reverse]

end Expr

/-! ### Tokens without places -/

/-- A token without its place: its kind and its bytes, an integer without leading zeros. -/
def Token.essence (t : Token) : Token.Kind × Bytes :=
  (t.kind, if t.kind = .integer then Decimal.ofNat (Decimal.toNat t.text) else t.text)

/-- The tokens without their places, blanks left out. -/
def essences (ts : List Token) : List (Token.Kind × Bytes) :=
  (ts.filter (·.kind ≠ .blank)).map Token.essence

theorem Token.kind_eq_of_essence {t u : Token} (h : t.essence = u.essence) : t.kind = u.kind :=
  congrArg Prod.fst h

theorem Token.text_eq_of_essence {t u : Token} (h : t.essence = u.essence)
    (hk : t.kind ≠ .integer) : t.text = u.text := by
  have htext := congrArg Prod.snd h
  unfold essence at htext
  rwa [if_neg hk, if_neg (by rw [← kind_eq_of_essence h]; exact hk)] at htext

theorem Token.toNat_eq_of_essence {t u : Token} (h : t.essence = u.essence)
    (hk : t.kind = .integer) : Decimal.toNat t.text = Decimal.toNat u.text := by
  have htext := congrArg Prod.snd h
  unfold essence at htext
  rw [if_pos hk, if_pos (by rw [← kind_eq_of_essence h]; exact hk)] at htext
  simp only at htext
  rw [← Decimal.toNat_ofNat (Decimal.toNat t.text), htext, Decimal.toNat_ofNat]

namespace Parser

/-! ### Words -/

/-- A word is read the same wherever it stands. -/
theorem word_place (s s' : Span) (text : Bytes) (names : Interner) {source source' : Bytes}
    (hs : s.of source = text) (hs' : s'.of source' = text) :
    (word s text names).1.bare source = (word s' text names).1.bare source' ∧
      (word s text names).2 = (word s' text names).2 := by
  unfold word
  split_ifs
  · exact ⟨rfl, rfl⟩
  · exact ⟨rfl, rfl⟩
  · exact ⟨rfl, rfl⟩
  · split
    · simp only [Expr.bare, hs, hs', and_self]
    · simp only [Expr.bare, hs, hs', and_self]

theorem wordAt_place (head : Bool) (s s' : Span) (text : Bytes) (names : Interner)
    {source source' : Bytes} (hs : s.of source = text) (hs' : s'.of source' = text) :
    (wordAt head s text names).1.bare source = (wordAt head s' text names).1.bare source' ∧
      (wordAt head s text names).2 = (wordAt head s' text names).2 := by
  unfold wordAt
  split
  · simp only [Expr.bare, hs, hs', and_self]
  · exact word_place s s' text names hs hs'

/-- A word is read the same by an interner that knows what reading it leaves behind. -/
theorem wordAt_again {head : Bool} {s : Span} {text : Bytes} {names later : Interner}
    (h : (wordAt head s text names).2.Extends later) :
    wordAt head s text later = ((wordAt head s text names).1, later) := by
  have hintern {name : Bytes} (hn : (names.intern name).2.Extends later) :
      later.intern name = ((names.intern name).1, later) :=
    Interner.intern_of_find? (hn.find? (Interner.find?_intern names name))
  unfold wordAt at h ⊢
  split at h
  · rw [hintern h]
  · unfold word at h ⊢
    split_ifs at h ⊢
    · rfl
    · rfl
    · rfl
    · split at h
      · simp only [hintern h]
      · simp only [hintern h]

/-! ### States without places -/

/-- The states differ only in the places of the trees read so far. -/
structure State.Alike (source source' : Bytes) (st st' : State) : Prop where
  /-- The same sequences are open and have the same elements. -/
  pending : st.pending.map (fun p => (p.delim, Expr.bareAll source p.elems)) =
    st'.pending.map fun p => (p.delim, Expr.bareAll source' p.elems)
  /-- The complete expressions are the same. -/
  complete : Expr.bareAll source st.complete = Expr.bareAll source' st'.complete
  /-- The same names have been met. -/
  names : st.names = st'.names

variable {source source' : Bytes} {mode : Mode} {limit : Nat} {st st' : State}

theorem State.alike_start (names : Interner) :
    State.Alike source source' { names := names } { names := names } :=
  ⟨rfl, rfl, rfl⟩

theorem State.Alike.length_pending (h : State.Alike source source' st st') :
    st.pending.length = st'.pending.length := by
  simpa using congrArg List.length h.pending

theorem State.Alike.isEmpty_complete (h : State.Alike source source' st st') :
    st.complete.isEmpty = st'.complete.isEmpty := by
  have := h.complete
  rw [Expr.bareAll_eq_map, Expr.bareAll_eq_map] at this
  simpa using congrArg List.isEmpty this

theorem State.Alike.lineIsOver (h : State.Alike source source' st st') (mode : Mode) :
    st.lineIsOver mode = st'.lineIsOver mode := by
  have hpending : st.pending.isEmpty = st'.pending.isEmpty := by
    simpa using congrArg List.isEmpty h.pending
  unfold State.lineIsOver
  rw [hpending, h.isEmpty_complete]

theorem State.Alike.cons_pending (h : State.Alike source source' st st') {p : Pending}
    {ps : List Pending} (hp : st.pending = p :: ps) :
    ∃ p' ps', st'.pending = p' :: ps' ∧ p'.delim = p.delim ∧
      Expr.bareAll source p.elems = Expr.bareAll source' p'.elems ∧
      ps.map (fun p => (p.delim, Expr.bareAll source p.elems)) =
        ps'.map fun p => (p.delim, Expr.bareAll source' p.elems) := by
  have hpending := h.pending
  rw [hp, List.map_cons] at hpending
  obtain ⟨p', ps', hp', hhead, htail⟩ := List.map_eq_cons_iff.1 hpending.symm
  rw [Prod.mk.injEq] at hhead
  exact ⟨p', ps', hp', hhead.1, hhead.2.symm, htail.symm⟩

theorem State.Alike.atHead (h : State.Alike source source' st st') : st.atHead = st'.atHead := by
  obtain ⟨pending, complete, names⟩ := st
  cases pending with
  | nil =>
    have hpending : st'.pending = [] := by simpa using h.pending
    simp [State.atHead, hpending]
  | cons p ps =>
    obtain ⟨p', ps', hp', hd, helems, -⟩ := h.cons_pending rfl
    obtain ⟨d, lo, elems⟩ := p
    obtain ⟨d', lo', elems'⟩ := p'
    simp only at hd helems
    subst hd
    have hempty : elems = [] ↔ elems' = [] := by
      rw [Expr.bareAll_eq_map, Expr.bareAll_eq_map] at helems
      constructor
      · rintro rfl
        simpa using helems.symm
      · rintro rfl
        simpa using helems
    cases elems <;> cases elems' <;> cases d' <;> simp_all [State.atHead]

theorem State.Alike.add (h : State.Alike source source' st st') {e e' : Expr}
    (he : e.bare source = e'.bare source') :
    State.Alike source source' (st.add e) (st'.add e') := by
  obtain ⟨pending, complete, names⟩ := st
  cases pending with
  | nil =>
    have hpending : st'.pending = [] := by simpa using h.pending
    refine ⟨?_, ?_, ?_⟩
    · simp [State.add, hpending]
    · simp only [State.add, hpending, Expr.bareAll]
      exact congrArg₂ List.cons he h.complete
    · rw [State.names_add, State.names_add]
      exact h.names
  | cons p ps =>
    obtain ⟨p', ps', hp', hd, helems, hrest⟩ := h.cons_pending rfl
    refine ⟨?_, ?_, ?_⟩
    · simp only [State.add, hp', List.map_cons, Expr.bareAll, hd, he, helems, hrest]
    · simp only [State.add, hp']
      exact h.complete
    · rw [State.names_add, State.names_add]
      exact h.names

/-! ### Reading without places -/

variable {t u : Token}

theorem bare_sequence (d : Delim) {s s' : Span} {xs xs' : List Expr}
    (h : Expr.bareAll source xs = Expr.bareAll source' xs') :
    (sequence d s xs).bare source = (sequence d s' xs').bare source' := by
  unfold sequence
  split_ifs
  · rw [Expr.bare, Expr.bare, h]
  · rw [Expr.bare, Expr.bare, h]

/-- A token with the same essence does the same. -/
theorem Reads.alike {st₁ : State} (h : Reads mode limit st t st₁)
    (hst : State.Alike source source' st st') (ht : t.Fits source) (hu : u.Fits source')
    (htu : t.essence = u.essence) :
    ∃ st₁', Reads mode limit st' u st₁' ∧ State.Alike source source' st₁ st₁' := by
  have hkind := Token.kind_eq_of_essence htu
  cases h with
  | blank hk => exact ⟨st', .blank (hkind ▸ hk), hst⟩
  | integer hk hover hfits =>
    have hval := Token.toNat_eq_of_essence htu hk
    rw [hval] at hfits ⊢
    exact ⟨_, .integer (hkind ▸ hk) (hst.lineIsOver mode ▸ hover) hfits, hst.add rfl⟩
  | string hk hover =>
    have htext := Token.text_eq_of_essence htu (by rw [hk]; decide)
    refine ⟨_, .string (hkind ▸ hk) (hst.lineIsOver mode ▸ hover), hst.add ?_⟩
    rw [Expr.bare, Expr.bare, ht.text_eq, hu.text_eq, htext]
  | word hk hover =>
    have htext := Token.text_eq_of_essence htu (by rw [hk]; decide)
    refine ⟨_, .word (hkind ▸ hk) (hst.lineIsOver mode ▸ hover), ?_⟩
    obtain ⟨hbare, hnames⟩ := wordAt_place st.atHead t.span u.span t.text st.names ht.text_eq
      (hu.text_eq.trans htext.symm)
    rw [← htext, ← hst.atHead, ← hst.names]
    have hnew : State.Alike source source'
        { st with names := (wordAt st.atHead t.span t.text st.names).2 }
        { st' with names := (wordAt st.atHead u.span t.text st.names).2 } :=
      ⟨hst.pending, hst.complete, hnames⟩
    exact hnew.add hbare
  | opening d hk hover hd hlimit =>
    rw [hst.length_pending] at hlimit
    refine ⟨_, .opening d (hkind ▸ hk) (hst.lineIsOver mode ▸ hover) hd hlimit, ?_⟩
    refine ⟨?_, hst.complete, hst.names⟩
    simp only [List.map_cons, Expr.bareAll, hst.pending]
  | closing p ps hp hk hover =>
    obtain ⟨p', ps', hp', hd, helems, hrest⟩ := hst.cons_pending hp
    refine ⟨_, .closing p' ps' hp' (by rw [← hkind, hk, hd]) (hst.lineIsOver mode ▸ hover), ?_⟩
    have hnew : State.Alike source source' { st with pending := ps } { st' with pending := ps' } :=
      ⟨hrest, hst.complete, hst.names⟩
    rw [hd]
    refine hnew.add (bare_sequence p.delim ?_)
    rw [Expr.bareAll_reverse, Expr.bareAll_reverse, helems]

theorem steps_filter :
    ∀ {ts : List Token} {st st' : State},
      Steps mode limit st ts st' ↔ Steps mode limit st (ts.filter (·.kind ≠ .blank)) st'
  | [], _, _ => Iff.rfl
  | t :: ts, st, st' => by
    by_cases hk : t.kind = .blank
    · rw [List.filter_cons_of_neg (by simp [hk]), ← steps_filter]
      constructor
      · rintro ⟨st₁, hread, hsteps⟩
        have : st₁ = st := by
          have := step_ok_iff.2 hread
          rw [step_blank hk] at this
          exact (Except.ok.inj this).symm
        exact this ▸ hsteps
      · exact fun hsteps => ⟨st, .blank hk, hsteps⟩
    · rw [List.filter_cons_of_pos (by simp [hk])]
      exact exists_congr fun st₁ => and_congr_right fun _ => steps_filter

/-- Tokens with the same essences one by one do the same. -/
theorem steps_alike_of_map :
    ∀ {ts us : List Token} {st st' st₁ : State}, Steps mode limit st ts st₁ →
      State.Alike source source' st st' → (∀ t ∈ ts, t.Fits source) → (∀ u ∈ us, u.Fits source') →
      ts.map Token.essence = us.map Token.essence →
      ∃ st₁', Steps mode limit st' us st₁' ∧ State.Alike source source' st₁ st₁'
  | [], [], _, st', _, rfl, hst, _, _, _ => ⟨st', rfl, hst⟩
  | t :: ts, u :: us, _, _, _, ⟨_, hread, hsteps⟩, hst, hts, hus, hmap => by
    rw [List.map_cons, List.map_cons, List.cons.injEq] at hmap
    obtain ⟨st₂, hread', hst₂⟩ :=
      hread.alike hst (hts t List.mem_cons_self) (hus u List.mem_cons_self) hmap.1
    obtain ⟨st₁', hsteps', hst₁⟩ := steps_alike_of_map hsteps hst₂
      (fun t ht => hts t (List.mem_cons_of_mem _ ht))
      (fun u hu => hus u (List.mem_cons_of_mem _ hu)) hmap.2
    exact ⟨st₁', ⟨st₂, hread', hsteps'⟩, hst₁⟩

/-- Tokens with the same essences do the same, whatever blanks stand between them. -/
theorem Steps.alike {ts us : List Token} {st₁ : State} (h : Steps mode limit st ts st₁)
    (hst : State.Alike source source' st st') (hts : ∀ t ∈ ts, t.Fits source)
    (hus : ∀ u ∈ us, u.Fits source') (heq : essences ts = essences us) :
    ∃ st₁', Steps mode limit st' us st₁' ∧ State.Alike source source' st₁ st₁' := by
  obtain ⟨st₁', hsteps, hst₁⟩ := steps_alike_of_map (steps_filter.1 h) hst
    (fun t ht => hts t (List.mem_filter.1 ht).1) (fun u hu => hus u (List.mem_filter.1 hu).1) heq
  exact ⟨st₁', steps_filter.2 hsteps, hst₁⟩

/-- Two texts with the same essences are read as trees that differ only in their places. -/
theorem parse_alike {text text' : Bytes} {names names' : Interner} {es : List Expr}
    (h : parse mode limit text names = (.ok es, names')) (hlexes : (tokens text').2 = none)
    (heq : essences (tokens text).1 = essences (tokens text').1) :
    ∃ es', parse mode limit text' names = (.ok es', names') ∧
      Expr.bareAll text es = Expr.bareAll text' es' := by
  obtain ⟨-, st, hsteps, hpending, rfl, rfl⟩ := parse_ok_iff.1 h
  obtain ⟨st', hsteps', hst⟩ := hsteps.alike (State.alike_start names) (laid_tokens text).fits
    (laid_tokens text').fits heq
  have hpending' : st'.pending = [] := by
    have := hst.length_pending
    rw [hpending] at this
    exact List.eq_nil_of_length_eq_zero this.symm
  refine ⟨st'.complete.reverse, parse_ok_iff.2 ⟨hlexes, st', hsteps', hpending', rfl, ?_⟩, ?_⟩
  · exact hst.names.symm
  · rw [Expr.bareAll_reverse, Expr.bareAll_reverse, hst.complete]

/-! ### Reading with more names -/

theorem Reads.again {st₁ : State} {later : Interner} (h : Reads mode limit st t st₁)
    (hn : st₁.names.Extends later) :
    Reads mode limit { st with names := later } t { st₁ with names := later } := by
  have hadd (st : State) (e : Expr) :
      { st.add e with names := later } = { st with names := later }.add e := by
    unfold State.add
    split <;> simp [*]
  cases h with
  | blank hk => exact .blank hk
  | integer hk hover hfits =>
    rw [hadd]
    exact .integer hk hover hfits
  | string hk hover =>
    rw [hadd]
    exact .string hk hover
  | word hk hover =>
    rw [State.names_add] at hn
    have hword : Reads mode limit { st with names := later } t _ := .word hk hover
    simp only at hword
    rw [show State.atHead { st with names := later } = st.atHead from rfl, wordAt_again hn] at hword
    rw [hadd]
    exact hword
  | opening d hk hover hd hlimit => exact .opening d hk hover hd hlimit
  | closing p ps hp hk hover =>
    rw [hadd]
    exact .closing p ps hp hk hover

theorem Steps.again {later : Interner} :
    ∀ {ts : List Token} {st st' : State}, Steps mode limit st ts st' → st'.names.Extends later →
      Steps mode limit { st with names := later } ts { st' with names := later }
  | [], _, _, rfl, _ => rfl
  | _ :: _, _, _, ⟨_, hread, hsteps⟩, hn =>
    ⟨_, hread.again (hsteps.names_extends.trans hn), hsteps.again hn⟩

/-- Reading a text again with the names that it left behind gives the same trees. -/
theorem parse_again {text : Bytes} {names names' : Interner} {es : List Expr}
    (h : parse mode limit text names = (.ok es, names')) :
    parse mode limit text names' = (.ok es, names') := by
  obtain ⟨hlexes, st, hsteps, hpending, rfl, rfl⟩ := parse_ok_iff.1 h
  exact parse_ok_iff.2 ⟨hlexes, _, hsteps.again (Interner.Extends.refl _), hpending, rfl, rfl⟩

end Parser

end SpanLisp
