import SpanLisp.Proofs.TreeReading

/-!
# The text of a node

The span of a node is its own text.  Siblings stand one behind the other, and children between the
delimiters of their parent (`inOrder_of_laid`, `between_of_laid`).  The lexer cuts the text of a
node out of its surroundings at the same tokens (`exists_text`), and the parser reads these as the
same tree (`parse_of_tokens`); only an operator is read differently, for lack of a list that it
stands at the head of.
-/

namespace SpanLisp

open ByteLexer

/-! ### Order -/

namespace Expr

/-- The expressions stand one behind the other. -/
def InOrder (es : List Expr) : Prop := es.Pairwise fun a b => a.span.hi ≤ b.span.lo

variable {source : Bytes} {names : Interner}

theorem exists_last_token {head : Bool} :
    ∀ {e : Expr}, e.Faithful source names head →
      ∃ ts t, e.tokens source = ts ++ [t] ∧ t.span.hi = e.span.hi
  | list _ _, _ | vector _ _, _ => ⟨_, _, rfl, rfl⟩
  | integer _ _, _ | string _, _ | bool _ _, _ | keyword _ _, _ | nil _, _ | operator _ _, _
  | symbol _ _, _ => ⟨[], _, rfl, rfl⟩

/-- Expressions whose tokens follow one another stand one behind the other. -/
theorem inOrder_of_laid : ∀ {head : Bool} {es : List Expr}, FaithfulAll source names head es →
    Token.Laid source (tokensAll source es) → InOrder es
  | _, [], _, _ => .nil
  | head, x :: xs, ⟨hx, hxs⟩, hlaid => by
    have hordered := List.pairwise_append.1 hlaid.ordered
    refine .cons (fun y hy => ?_)
      (inOrder_of_laid hxs (hlaid.sublist (List.sublist_append_right _ _)))
    obtain ⟨ts, t, ht, hhi⟩ := exists_last_token hx
    obtain ⟨head', hy'⟩ := hxs.of_mem hy
    obtain ⟨u, us, hu, hlo⟩ := exists_first_token hy'
    obtain ⟨before, after, hsplit, -⟩ := split_tokensAll source hy
    rw [← hhi, ← hlo]
    refine hordered.2.2 t ?_ u ?_
    · rw [ht]
      simp
    · rw [hsplit, hu]
      simp

theorem inOrder_elems {head : Bool} {n : Expr} (hn : n.Faithful source names head)
    (hlaid : Token.Laid source (n.tokens source)) : InOrder n.elems := by
  cases n with
  | list s xs => exact inOrder_of_laid hn (hlaid.sublist (sublist_between _ _ _))
  | vector s xs => exact inOrder_of_laid hn (hlaid.sublist (sublist_between _ _ _))
  | bool | integer | keyword | nil | operator | string | symbol | unlisted => exact .nil

/-- The elements of a sequence stand between its delimiters. -/
theorem between_of_laid {head : Bool} {n c : Expr} (hn : n.Faithful source names head)
    (hlaid : Token.Laid source (n.tokens source)) (hc : c ∈ n.elems) :
    n.span.lo < c.span.lo ∧ c.span.hi < n.span.hi := by
  obtain ⟨d, htokens⟩ := tokens_of_isSequence source (isSequence_of_elems hc)
  obtain ⟨head', hc'⟩ := hn.elems hc
  obtain ⟨u, us, hu, hlo⟩ := exists_first_token hc'
  obtain ⟨ts, t, ht, hhi⟩ := exists_last_token hc'
  obtain ⟨before, after, hsplit, -⟩ := split_tokensAll source hc
  rw [htokens] at hlaid
  obtain ⟨hopen, hrest⟩ := List.pairwise_cons.1 hlaid.ordered
  have hfirst : n.span.lo + 1 ≤ u.span.lo := by
    refine hopen u ?_
    rw [hsplit, hu]
    simp
  have hlast : t.span.hi ≤ n.span.hi - 1 := by
    refine (List.pairwise_append.1 hrest).2.2 t ?_ _ List.mem_cons_self
    rw [hsplit, ht]
    simp
  have hbounds := bounds_of_delimiters hlaid
  omega

end Expr

/-! ### Cutting tokens out -/

theorem scan_unshift (k pos : Nat) (t : Bytes) :
    (scan (pos + k) t).2 = none → (scan pos t).2 = none := by
  induction pos, t using scan_induction with
  | nil pos => exact fun _ => rfl
  | failed pos b bs kind run hfront =>
    rw [scan_failed hfront]
    intro h
    cases h
  | token pos b bs kind run rest hfront ih =>
    rw [scan_token hfront, scan_token hfront, Nat.add_right_comm]
    exact ih

/-- Tokens that follow one another can be cut out of a text. -/
theorem exists_middle {text : Bytes} {us ms vs : List Token} {failure : Option SyntaxError}
    (h : scan 0 text = (us ++ ms ++ vs, failure)) :
    ∃ before w after, text = before ++ w ++ after ∧ scan before.length w = (ms, none) := by
  obtain ⟨front, after, rfl, -, hfront⟩ := exists_cut h
  have hends : EndsLike after [] := fun kind _ => stops_nil kind
  have hscan := hfront [] hends
  rw [scan_nil, List.append_nil, List.append_nil] at hscan
  obtain ⟨before, w, rfl, hw, -⟩ := exists_cut hscan
  rw [Nat.zero_add] at hw
  exact ⟨before, w, after, rfl, hw⟩

theorem lo_of_scan {pos : Nat} {w : Bytes} {t : Token} {ts : List Token}
    {failure : Option SyntaxError} (h : scan pos w = (t :: ts, failure)) : t.span.lo = pos := by
  obtain ⟨x, rest, -, ht, -⟩ := scan_eq_cons h
  rw [ht]

theorem hi_of_scan {pos : Nat} {w : Bytes} {t : Token} {ts : List Token}
    (h : scan pos w = (ts ++ [t], none)) : t.span.hi = pos + w.length := by
  obtain ⟨x, y, rfl, hlast, -⟩ := exists_cut h
  obtain ⟨z, rest, rfl, ht, -, -, hrest⟩ := scan_eq_cons hlast
  obtain rfl := scan_eq_nil hrest
  rw [ht]
  simp only [List.length_append, List.length_nil]
  omega

/-- The tokens of a node, with the blanks between them, stand together in the text. -/
theorem exists_tokens {text : Bytes} {names : Interner} {head : Bool} {n : Expr}
    (hn : n.Faithful text names head) {ts us vs : List Token}
    (h : ts.filter (·.kind ≠ .blank) = us ++ n.tokens text ++ vs) :
    ∃ us' ms vs', ts = us' ++ ms ++ vs' ∧ ms.filter (·.kind ≠ .blank) = n.tokens text ∧
      (∃ t rest, ms = t :: rest ∧ t.span.lo = n.span.lo) ∧
      ∃ rest t, ms = rest ++ [t] ∧ t.span.hi = n.span.hi := by
  cases hsequence : n.isSequence with
  | false =>
    obtain ⟨kind, hblank, -, htoken⟩ := Expr.tokens_of_not_isSequence hn hsequence
    rw [htoken, List.append_assoc] at h
    obtain ⟨us', vs', rfl, -, -⟩ := Token.split_filter h
    refine ⟨us', [Expr.leafToken text kind n.span], vs', by simp, ?_, ⟨_, [], rfl, rfl⟩,
      [], _, rfl, rfl⟩
    rw [htoken]
    exact List.filter_eq_self.2 (List.forall_mem_singleton.2 (decide_eq_true hblank))
  | true =>
    obtain ⟨d, htokens⟩ := Expr.tokens_of_isSequence text hsequence
    rw [htokens] at h ⊢
    simp only [List.cons_append, List.append_assoc] at h
    obtain ⟨us', rest, rfl, -, hrest⟩ := Token.split_filter h
    obtain ⟨mid, vs', rfl, hmid, -⟩ := Token.split_filter hrest
    refine ⟨us', Expr.openToken d n.span.lo :: mid ++ [Expr.closeToken d n.span.hi], vs',
      by simp, ?_, ⟨_, _, rfl, rfl⟩, _, _, rfl, rfl⟩
    rw [List.filter_append, List.filter_cons_of_pos (by simp [Expr.openToken]), hmid,
      List.filter_cons_of_pos (by simp [Expr.closeToken]), List.filter_nil]

/-- The text of a node has the tokens of the node, where they stand in the whole text. -/
theorem exists_text {text : Bytes} {names : Interner} {head : Bool} {n : Expr}
    (hn : n.Faithful text names head) {us vs : List Token}
    (h : (tokens text).1.filter (·.kind ≠ .blank) = us ++ n.tokens text ++ vs) :
    ∃ w ms, slice text n.span = .ok w ∧ scan n.span.lo w = (ms, none) ∧
      ms.filter (·.kind ≠ .blank) = n.tokens text := by
  obtain ⟨us', ms, vs', htokens, hfilter, ⟨t, rest, hfirst, hlo⟩, rest', t', hlast, hhi⟩ :=
    exists_tokens hn h
  have hscan : scan 0 text = (us' ++ ms ++ vs', (tokens text).2) := by
    rw [← htokens, ← tokens_eq_scan]
  obtain ⟨before, w, after, htext, hw⟩ := exists_middle hscan
  have hstart : before.length = n.span.lo := by
    rw [← hlo]
    exact (lo_of_scan (hfirst ▸ hw)).symm
  have hend : before.length + w.length = n.span.hi := by
    rw [← hhi]
    exact (hi_of_scan (hlast ▸ hw)).symm
  refine ⟨w, ms, ?_, hstart ▸ hw, hfilter⟩
  have hspan : n.span = ⟨before.length, before.length + w.length⟩ := by
    rw [hend, hstart]
  have hdrop : text.drop before.length = w ++ after := by
    rw [htext, List.append_assoc, List.drop_left]
  rw [hspan, slice_of_within, of_span_run hdrop]
  rw [htext]
  simp [Span.Within]

/-! ### Reading them -/

namespace Parser

variable {limit : Nat} {names : Interner}

theorem Reads.unlimited {mode : Mode} {st st' : State} {t : Token}
    (h : Reads mode limit st t st') : Reads mode 0 st t st' := by
  cases h with
  | blank hk => exact .blank hk
  | integer hk hover hfits => exact .integer hk hover hfits
  | string hk hover => exact .string hk hover
  | word hk hover => exact .word hk hover
  | opening d hk hover hd hlimit => exact .opening d hk hover hd (by omega)
  | closing p ps hp hk hover => exact .closing p ps hp hk hover

theorem Steps.unlimited {mode : Mode} : ∀ {ts : List Token} {st st' : State},
    Steps mode limit st ts st' → Steps mode 0 st ts st'
  | [], _, _, h => h
  | _ :: _, _, _, ⟨_, hread, hsteps⟩ => ⟨_, hread.unlimited, hsteps.unlimited⟩

theorem delimiters_shift (k : Nat) (ts : List Token) :
    delimiters (ts.map (Token.shift k)) = delimiters ts := by
  simp [delimiters, Function.comp_def, Token.shift]

theorem integersFit_shift {k : Nat} {ts : List Token} (h : IntegersFit (ts.map (Token.shift k))) :
    IntegersFit ts :=
  fun t ht => h (t.shift k) (List.mem_map_of_mem ht)

/-- A text with the tokens of a tree, only further along, is read as that tree. -/
theorem parse_of_tokens {source w : Bytes} {k : Nat} {ms : List Token} {n : Expr}
    (hn : n.Faithful source names false) (hsettled : ∀ t ∈ n.tokens source, Settled names t)
    (hshallow : Shallow limit (delimiters (n.tokens source))) (hscan : scan k w = (ms, none))
    (hfilter : ms.filter (·.kind ≠ .blank) = n.tokens source) :
    ∃ e, parse .script limit w names = (.ok [e], names) ∧ e.shift k = n := by
  have hlexes : (tokens w).2 = none := by
    rw [tokens_eq_scan]
    refine scan_unshift k 0 w ?_
    rw [Nat.zero_add, hscan]
  have hshift : (tokens w).1.map (Token.shift k) = ms := by
    rw [tokens_eq_scan, ← (scan_shift k 0 w).1, Nat.zero_add, hscan]
  -- Further along and without a limit the tokens are read as the tree.
  have htree : Steps .script 0 ⟨[], [], names⟩ ms ⟨[], [n], names⟩ := by
    refine steps_filter.2 ?_
    rw [hfilter]
    exact steps_tokens hn hsettled
  -- Whether they can be read depends neither on the place nor, where nothing is too deep, on the
  -- limit.
  obtain ⟨hmatch, hints⟩ := steps_iff_matches.1 ⟨_, htree, rfl⟩
  rw [← hshift, delimiters_shift] at hmatch
  rw [← hshift] at hints
  have hmatch' : Matches limit [] (delimiters (tokens w).1) := by
    refine matches_iff.2 ⟨matches_iff_balanced.1 hmatch, ?_⟩
    rwa [← delimiters_shift k, hshift, ← delimiters_filter, hfilter]
  obtain ⟨⟨pending, complete, names'⟩, hsteps, hpending⟩ :
      ∃ st, Steps .script limit ⟨[], [], names⟩ (tokens w).1 st ∧ st.pending = [] :=
    steps_iff_matches.2 ⟨hmatch', integersFit_shift hints⟩
  cases hpending
  have hsame := (hsteps.unlimited.further k).unique (hshift ▸ htree)
  rw [State.mk.injEq] at hsame
  obtain ⟨-, hcomplete, rfl⟩ := hsame
  obtain ⟨e, rfl, he⟩ := List.map_eq_singleton_iff.1 hcomplete
  exact ⟨e, parse_ok_iff.2 ⟨hlexes, _, hsteps, rfl, rfl, rfl⟩, he⟩

end Parser

/-! ### Whole texts -/

theorem Expr.Faithful.not_head {source : Bytes} {names : Interner} {head : Bool} {n : Expr}
    (h : n.Faithful source names head) (hop : ∀ s op, n ≠ .operator s op) :
    n.Faithful source names false := by
  cases n with
  | operator s op => exact absurd rfl (hop s op)
  | symbol s sym =>
    obtain ⟨hlit, hkey, -, hfind⟩ := h
    exact ⟨hlit, hkey, fun hhead => absurd hhead Bool.false_ne_true, hfind⟩
  | bool | integer | keyword | list | nil | string | vector | unlisted => exact h

/-- The text of the node alone is read, as a line, as the node at the start of a text, and no name
is added. -/
def Expr.Rereads (limit : Nat) (text : Bytes) (names : Interner) (n : Expr) : Prop :=
  ∃ w e, slice text n.span = .ok w ∧ parseLine limit w names = (.ok e, names) ∧
    e.shift n.span.lo = n

/-- What the trees of a text have in common with the text. -/
structure OwnText (limit : Nat) (text : Bytes) (names : Interner) (es : List Expr) : Prop where
  /-- The expressions stand one behind the other. -/
  inOrder : Expr.InOrder es
  /-- So do the elements of every node. -/
  elems : ∀ n ∈ Expr.nodesAll es, Expr.InOrder n.elems
  /-- They stand between the delimiters of the node. -/
  between : ∀ n ∈ Expr.nodesAll es, ∀ c ∈ n.elems, n.span.lo < c.span.lo ∧ c.span.hi < n.span.hi
  /-- The text of every node but an operator is read as the node. -/
  rereads : ∀ n ∈ Expr.nodesAll es, (∀ s op, n ≠ .operator s op) → n.Rereads limit text names

namespace Parser

variable {limit : Nat} {text : Bytes} {names names' : Interner} {es : List Expr}

/-- Every node of an accepted text, with its tokens among those of the text. -/
theorem node_of_parse (h : parse .script limit text names = (.ok es, names')) {n : Expr}
    (hn : n ∈ Expr.nodesAll es) :
    (∃ head, n.Faithful text names' head) ∧
      ∃ us vs k, (tokens text).1.filter (·.kind ≠ .blank) = us ++ n.tokens text ++ vs ∧
        Raises k (delimiters us) := by
  obtain ⟨i, e, addr, hi, haddr⟩ := Expr.exists_at?_of_mem_nodesAll hn
  have he := List.mem_of_getElem? hi
  obtain ⟨head, hfaithful⟩ := (parse_ok h).2.of_mem he
  obtain ⟨us, vs, htokens, hraise⟩ := split_of_parse h he haddr
  exact ⟨hfaithful.at? haddr, us, vs, addr.length, htokens, hraise⟩

theorem laid_of_parse (h : parse .script limit text names = (.ok es, names')) {n : Expr}
    (hn : n ∈ Expr.nodesAll es) : Token.Laid text (n.tokens text) := by
  obtain ⟨-, us, vs, -, htokens, -⟩ := node_of_parse h hn
  have hsolid : Token.Laid text ((tokens text).1.filter (·.kind ≠ .blank)) :=
    (laid_tokens text).sublist List.filter_sublist
  rw [htokens] at hsolid
  exact hsolid.sublist ((List.sublist_append_right _ _).trans (List.sublist_append_left _ _))

theorem rereads_of_parse (h : parse .script limit text names = (.ok es, names')) {n : Expr}
    (hn : n ∈ Expr.nodesAll es) (hop : ∀ s op, n ≠ .operator s op) :
    n.Rereads limit text names' := by
  obtain ⟨⟨head, hfaithful⟩, us, vs, k, htokens, hraise⟩ := node_of_parse h hn
  obtain ⟨w, ms, hslice, hscan, hfilter⟩ := exists_text hfaithful htokens
  have hsettled : ∀ t ∈ n.tokens text, Settled names' t := by
    intro t ht
    have hmem : t ∈ (tokens text).1.filter (·.kind ≠ .blank) := by
      rw [htokens]
      simp [ht]
    exact settled_of_parse h t (List.mem_filter.1 hmem).1
  have hshallow : Shallow limit (delimiters (n.tokens text)) := by
    have hwhole := shallow_of_parse h
    rw [← delimiters_filter, htokens, delimiters_append, delimiters_append] at hwhole
    exact hwhole.of_raises hraise
  obtain ⟨e, hparse, he⟩ :=
    parse_of_tokens (hfaithful.not_head hop) hsettled hshallow hscan hfilter
  exact ⟨w, e, hslice, parseLine_of_parse (parse_line_ok_iff.2 ⟨hparse, Nat.le_refl 1⟩), he⟩

theorem ownText_of_parse (h : parse .script limit text names = (.ok es, names')) :
    OwnText limit text names' es where
  inOrder := by
    refine Expr.inOrder_of_laid (parse_ok h).2 ?_
    rw [(parse_ok h).1]
    exact (laid_tokens text).sublist List.filter_sublist
  elems n hn := by
    obtain ⟨⟨head, hfaithful⟩, -⟩ := node_of_parse h hn
    exact Expr.inOrder_elems hfaithful (laid_of_parse h hn)
  between n hn c hc := by
    obtain ⟨⟨head, hfaithful⟩, -⟩ := node_of_parse h hn
    exact Expr.between_of_laid hfaithful (laid_of_parse h hn) hc
  rereads n hn hop := rereads_of_parse h hn hop

end Parser

/-- The `nil` of a blank line is that of no text at all. -/
theorem ownText_blank (limit : Nat) (text : Bytes) (names : Interner) :
    OwnText limit text names [.nil (.point text.length)] := by
  have hnodes : ∀ n ∈ Expr.nodesAll [.nil (.point text.length)], n = .nil (.point text.length) :=
    fun n hn => List.mem_singleton.1 hn
  refine ⟨List.pairwise_singleton _ _, fun n hn => ?_, fun n hn c hc => ?_, fun n hn _ => ?_⟩
  · rw [hnodes n hn]
    exact .nil
  · rw [hnodes n hn] at hc
    cases hc
  · have hempty : Parser.parse .line limit [] names = (.ok [], names) := by
      unfold Parser.parse
      rw [tokens_eq_scan, scan_nil]
      rfl
    have hspan : (Expr.nil (.point text.length)).span = .point text.length := rfl
    rw [hnodes n hn]
    refine ⟨[], .nil (.point 0), ?_, parseLine_of_parse hempty, ?_⟩
    · rw [hspan, slice_of_within ⟨Nat.le_refl _, Nat.le_refl _⟩]
      simp [Span.of, Span.point]
    · simp [Expr.shift, Span.shift, Span.point, Expr.span]

end SpanLisp
