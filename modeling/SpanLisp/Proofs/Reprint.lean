import SpanLisp.Proofs.Layout

/-!
# Reading back a printed tree

The canonical text of a tree lexes to the tokens of the tree, blanks and leading zeros aside
(`lexesAs_write`).  So the parser reads it as a tree that differs only in its places, and printing
that tree gives the same text again, as does printing any tree that differs only in its places
(`parseLine_print`).
-/

namespace SpanLisp

open ByteLexer

/-! ### The essences of a text -/

/-- The text lexes, wherever it stands, and these are the essences of its tokens. -/
def LexesAs (text : Bytes) (es : List (Token.Kind × Bytes)) : Prop :=
  ∀ pos, (scan pos text).2 = none ∧ essences (scan pos text).1 = es

theorem lexesAs_nil : LexesAs [] [] := by
  intro pos
  rw [scan_nil]
  exact ⟨rfl, rfl⟩

theorem LexesAs.tokens {text : Bytes} {es : List (Token.Kind × Bytes)} (h : LexesAs text es) :
    (tokens text).2 = none ∧ essences (tokens text).1 = es := by
  rw [tokens_eq_scan]
  exact h 0

/-- A lexeme with the essence of a token, in front of bytes that do not go on with it. -/
theorem LexesAs.lexeme {rest w : Bytes} {es : List (Token.Kind × Bytes)} {t : Token}
    (h : LexesAs rest es) (hk : t.kind ≠ .blank) (hw : Lexeme t.kind w) (hr : Stops t.kind rest)
    (hsame : Token.essence { t with text := w } = t.essence) :
    LexesAs (w ++ rest) (t.essence :: es) := by
  intro pos
  obtain ⟨hlexes, heq⟩ := h (pos + w.length)
  rw [scan_append hw hr]
  refine ⟨hlexes, ?_⟩
  unfold essences at heq ⊢
  rw [List.filter_cons_of_pos (by simpa using hk), List.map_cons, heq, ← hsame]
  rfl

/-- A space leaves the essences as they are. -/
theorem LexesAs.space {rest : Bytes} {es : List (Token.Kind × Bytes)} (h : LexesAs rest es) :
    LexesAs (0x20 :: rest) es := by
  intro pos
  have hfront : front 0x20 rest = .token .blank (0x20 :: rest.takeWhile ByteLexer.isBlank)
      (rest.dropWhile ByteLexer.isBlank) := rfl
  -- The space is one token with the blanks behind it, which make up the first token of `rest`.
  obtain ⟨hlexes, heq⟩ := h (pos + 1)
  rw [scan_token hfront]
  by_cases hrun : rest.takeWhile ByteLexer.isBlank = []
  · have hdrop : rest.dropWhile ByteLexer.isBlank = rest := by
      have := List.takeWhile_append_dropWhile (p := ByteLexer.isBlank) (l := rest)
      rwa [hrun, List.nil_append] at this
    rw [hrun, hdrop]
    exact ⟨hlexes, heq⟩
  · have hlexeme : Lexeme .blank (rest.takeWhile ByteLexer.isBlank) :=
      ⟨hrun, fun b hb => List.mem_takeWhile_imp hb⟩
    have hstop : Stops .blank (rest.dropWhile ByteLexer.isBlank) := head?_dropWhile
    have hscan := scan_append hlexeme hstop (pos + 1)
    rw [List.takeWhile_append_dropWhile] at hscan
    rw [hscan] at hlexes heq
    have hpos : pos + (0x20 :: rest.takeWhile ByteLexer.isBlank).length =
        pos + 1 + (rest.takeWhile ByteLexer.isBlank).length := by
      rw [List.length_cons]
      omega
    rw [hpos]
    exact ⟨hlexes, heq⟩

theorem isSymbolic_of_isDigit {b : UInt8} (h : Decimal.isDigit b = true) :
    isSymbolic b = true := by
  have hlt : b < 0x80 := by
    simp only [Decimal.isDigit, Bool.and_eq_true, decide_eq_true_eq] at h
    exact UInt8.lt_of_le_of_lt h.2 (by decide)
  exact forall_ascii (P := fun b => Decimal.isDigit b = true → isSymbolic b = true)
    (by decide +kernel) b hlt h

/-- Bytes that do not go on with a name do not go on with any token but a blank. -/
theorem Stops.of_symbol {rest : Bytes} (h : Stops .symbol rest) {kind : Token.Kind}
    (hk : kind ≠ .blank) : Stops kind rest := by
  intro b hb
  match kind with
  | .opening _ | .closing _ | .string => trivial
  | .symbol => exact h b hb
  | .integer =>
    refine Bool.eq_false_iff.2 fun hdigit => ?_
    have := h b hb
    rw [isSymbolic_of_isDigit hdigit] at this
    cases this
  | .blank => exact absurd rfl hk

/-! ### The canonical text of a tree -/

namespace Expr

theorem writeAll_cons (source : Bytes) (x y : Expr) (ys : List Expr) (rest : Bytes) :
    writeAll source (x :: y :: ys) rest =
      write source x (0x20 :: writeAll source (y :: ys) rest) := by
  rw [writeAll]
  simp

/-- A leaf that is written as its bytes in the source. -/
theorem lexesAs_leaf {source rest : Bytes} {es : List (Token.Kind × Bytes)} {kind : Token.Kind}
    {s : Span} (hk : kind ≠ .blank) (hfits : ∀ t ∈ [leafToken source kind s], t.Fits source)
    (hstop : Stops .symbol rest) (h : LexesAs rest es) :
    LexesAs (s.of source ++ rest) ((leafToken source kind s).essence :: es) :=
  h.lexeme hk (hfits _ List.mem_cons_self).lexeme (hstop.of_symbol hk) rfl

theorem lexesAs_delimiters {source rest : Bytes} {es : List (Token.Kind × Bytes)} (d : Delim)
    {s : Span} {xs : List Expr} (h : LexesAs rest es)
    (hall : ∀ {rest es}, Stops .symbol rest → LexesAs rest es →
      LexesAs (writeAll source xs rest) ((tokensAll source xs).map Token.essence ++ es)) :
    LexesAs (d.opening ++ writeAll source xs (d.closing ++ rest))
      ((openToken d s.lo :: tokensAll source xs ++ [closeToken d s.hi]).map Token.essence ++
        es) := by
  have hclose : LexesAs (d.closing ++ rest) ((closeToken d s.hi).essence :: es) :=
    h.lexeme (t := closeToken d s.hi) (fun h => Token.Kind.noConfusion h) rfl
      (fun _ _ => trivial) rfl
  have hstop : Stops .symbol (d.closing ++ rest) := by
    cases d <;> (rintro b ⟨⟩; rfl)
  rw [List.cons_append, List.map_cons, List.map_append, List.cons_append, List.append_assoc]
  exact (hall hstop hclose).lexeme (t := openToken d s.lo) (fun h => Token.Kind.noConfusion h) rfl
    (fun _ _ => trivial) rfl

mutual

/-- What is written for a tree lexes to the tokens of the tree. -/
theorem lexesAs_write {source : Bytes} {names : Interner} :
    ∀ {head : Bool} {e : Expr} {rest : Bytes} {es : List (Token.Kind × Bytes)},
      e.Faithful source names head → (∀ t ∈ e.tokens source, t.Fits source) →
      Stops .symbol rest → LexesAs rest es →
      LexesAs (e.write source rest) ((e.tokens source).map Token.essence ++ es)
  | _, list s xs, _, _, hf, hfits, _, h =>
    lexesAs_delimiters .paren h fun hstop h => lexesAs_writeAll hf
      (fun t ht => hfits t ((sublist_between .paren s _).subset ht)) hstop h
  | _, vector s xs, _, _, hf, hfits, _, h =>
    lexesAs_delimiters .bracket h fun hstop h => lexesAs_writeAll hf
      (fun t ht => hfits t ((sublist_between .bracket s _).subset ht)) hstop h
  | _, integer s n, _, _, hf, hfits, hstop, h => by
    have hnum : Decimal.ofInt n.toInt = Decimal.ofNat (Decimal.toNat (s.of source)) := by
      rw [show n.toInt = Decimal.toNat (s.of source) from hf]
      rfl
    have hk : Token.Kind.integer ≠ .blank := by decide
    rw [write, hnum]
    refine h.lexeme (t := leafToken source .integer s) hk
      ⟨Decimal.ofNat_ne_nil _, fun b hb => Decimal.isDigit_of_mem_ofNat hb⟩ (hstop.of_symbol hk) ?_
    simp only [Token.essence, leafToken, if_pos, Decimal.toNat_ofNat]
  | _, bool s b, _, _, hf, hfits, hstop, h => by
    rw [write, ← show s.of source = boolText b from hf]
    exact lexesAs_leaf (by decide) hfits hstop h
  | _, nil s, _, _, hf, hfits, hstop, h => by
    rw [write, ← show s.of source = utf8 "nil" from hf]
    exact lexesAs_leaf (by decide) hfits hstop h
  | _, string _, _, _, _, hfits, hstop, h | _, keyword _ _, _, _, _, hfits, hstop, h
  | _, operator _ _, _, _, _, hfits, hstop, h | _, symbol _ _, _, _, _, hfits, hstop, h =>
    lexesAs_leaf (by decide) hfits hstop h

theorem lexesAs_writeAll {source : Bytes} {names : Interner} :
    ∀ {head : Bool} {xs : List Expr} {rest : Bytes} {es : List (Token.Kind × Bytes)},
      FaithfulAll source names head xs → (∀ t ∈ tokensAll source xs, t.Fits source) →
      Stops .symbol rest → LexesAs rest es →
      LexesAs (writeAll source xs rest) ((tokensAll source xs).map Token.essence ++ es)
  | _, [], _, _, _, _, _, h => h
  | _, [x], _, _, hf, hfits, hstop, h => by
    rw [writeAll, tokensAll, tokensAll, List.append_nil]
    rw [tokensAll, tokensAll, List.append_nil] at hfits
    exact lexesAs_write hf.1 hfits hstop h
  | _, x :: y :: ys, _, _, hf, hfits, hstop, h => by
    have hrest := lexesAs_writeAll hf.2
      (fun t ht => hfits t (List.mem_append_right _ ht)) hstop h
    rw [writeAll_cons, tokensAll, List.map_append, List.append_assoc]
    refine lexesAs_write hf.1 (fun t ht => hfits t (List.mem_append_left _ ht)) ?_ hrest.space
    rintro b ⟨⟩
    rfl

end

/-! ### Printing is defined and depends on the bare tree -/

theorem check_leaf {source : Bytes} {kind : Token.Kind} {s : Span}
    (hfits : ∀ t ∈ [leafToken source kind s], t.Fits source) :
    (slice source s).map (fun _ => ()) = .ok () := by
  have hslice : slice source s = .ok (s.of source) :=
    slice_of_within (hfits _ List.mem_cons_self).within
  rw [hslice]
  rfl

mutual

theorem check_ok {source : Bytes} :
    ∀ {e : Expr}, (∀ t ∈ e.tokens source, t.Fits source) → e.check source = .ok ()
  | list s _, h => checkAll_ok fun t ht => h t ((sublist_between .paren s _).subset ht)
  | vector s _, h => checkAll_ok fun t ht => h t ((sublist_between .bracket s _).subset ht)
  | keyword _ _, h | operator _ _, h | string _, h | symbol _ _, h => check_leaf h
  | bool _ _, _ | integer _ _, _ | nil _, _ | unlisted _ _, _ => rfl

theorem checkAll_ok {source : Bytes} :
    ∀ {xs : List Expr}, (∀ t ∈ tokensAll source xs, t.Fits source) → checkAll source xs = .ok ()
  | [], _ => rfl
  | x :: xs, h => by
    rw [checkAll, check_ok fun t ht => h t (List.mem_append_left _ ht)]
    exact checkAll_ok fun t ht => h t (List.mem_append_right _ ht)

end

theorem print_ok {source : Bytes} {e : Expr} (h : ∀ t ∈ e.tokens source, t.Fits source) :
    e.print source = .ok (e.write source []) := by
  unfold print
  rw [check_ok h]
  rfl

mutual

theorem write_eq_of_bare {source source' : Bytes} :
    ∀ {e e' : Expr}, e.bare source = e'.bare source' →
      ∀ rest, e.write source rest = e'.write source' rest
  | bool _ _, bool _ _, rfl, _ | integer _ _, integer _ _, rfl, _ | nil _, nil _, rfl, _
  | unlisted _ _, unlisted _ _, rfl, _ => rfl
  | list _ _, list _ _, h, rest => by
    rw [write, write, writeAll_eq_of_bare (Bare.list.inj h)]
  | vector _ _, vector _ _, h, rest => by
    rw [write, write, writeAll_eq_of_bare (Bare.vector.inj h)]
  | keyword _ _, keyword _ _, h, rest => by rw [write, write, (Bare.keyword.inj h).2]
  | operator _ _, operator _ _, h, rest => by rw [write, write, (Bare.operator.inj h).2]
  | string _, string _, h, rest => by rw [write, write, Bare.string.inj h]
  | symbol _ _, symbol _ _, h, rest => by rw [write, write, (Bare.symbol.inj h).2]

theorem writeAll_eq_of_bare {source source' : Bytes} :
    ∀ {xs ys : List Expr}, bareAll source xs = bareAll source' ys →
      ∀ rest, writeAll source xs rest = writeAll source' ys rest
  | [], [], _, _ => rfl
  | [_], [_], h, rest => write_eq_of_bare (List.cons.inj h).1 rest
  | [_], _ :: _ :: _, h, _ | _ :: _ :: _, [_], h, _ => nomatch (List.cons.inj h).2
  | x :: x' :: xs, y :: y' :: ys, h, rest => by
    rw [writeAll_cons, writeAll_cons, writeAll_eq_of_bare (List.cons.inj h).2,
      write_eq_of_bare (List.cons.inj h).1]

end

end Expr

/-! ### Lines -/

namespace Parser

/-- At most one expression is complete, and nothing is open behind it. -/
def State.Single (st : State) : Prop :=
  st.complete = [] ∨ st.pending = [] ∧ ∃ e, st.complete = [e]

theorem State.single_add {st : State} (h : st.complete = []) (e : Expr) : (st.add e).Single := by
  unfold State.add
  split
  · exact .inr ⟨‹_›, e, by rw [h]⟩
  · exact .inl h

theorem State.Single.complete_eq_nil {st : State} (h : st.Single)
    (hover : st.lineIsOver .line = false) : st.complete = [] := by
  rcases h with h | ⟨hpending, e, he⟩
  · exact h
  · simp [State.lineIsOver, hpending, he] at hover

theorem Reads.single {limit : Nat} {st st' : State} {t : Token} (h : Reads .line limit st t st')
    (hs : st.Single) : st'.Single := by
  cases h with
  | blank hk => exact hs
  | opening d hk hover hd hlimit => exact .inl (hs.complete_eq_nil hover)
  | integer hk hover hfits | string hk hover | word hk hover | closing p ps hp hk hover =>
    refine State.single_add ?_ _
    exact hs.complete_eq_nil hover

theorem Steps.single {limit : Nat} :
    ∀ {ts : List Token} {st st' : State}, Steps .line limit st ts st' → st.Single → st'.Single
  | [], _, _, rfl, hs => hs
  | _ :: _, _, _, ⟨_, hread, hsteps⟩, hs => hsteps.single (hread.single hs)

/-- A line holds at most one expression; a line without any leaves the names as they are. -/
theorem parse_line_cases {limit : Nat} {text : Bytes} {names names' : Interner} {es : List Expr}
    (h : parse .line limit text names = (.ok es, names')) :
    es = [] ∧ names' = names ∨ ∃ e, es = [e] := by
  have htokens := (parse_ok h).1
  obtain ⟨-, st, hsteps, -, rfl, rfl⟩ := parse_ok_iff.1 h
  rcases hsteps.single (.inl rfl) with hnil | ⟨-, e, he⟩
  · refine .inl ⟨by rw [hnil]; rfl, ?_⟩
    rw [hnil] at htokens
    rw [steps_filter, ← htokens] at hsteps
    exact congrArg State.names hsteps
  · exact .inr ⟨e, by rw [he]; rfl⟩

end Parser

theorem fits_of_parse_single {mode : Parser.Mode} {limit : Nat} {text : Bytes}
    {names names' : Interner} {e : Expr}
    (h : Parser.parse mode limit text names = (.ok [e], names')) :
    ∀ t ∈ e.tokens text, t.Fits text :=
  fun t ht => Parser.fits_of_parse h t (List.mem_append_left _ ht)

/-- A blank line is printed as `nil`, which reads as `nil` too. -/
theorem parse_nil (limit : Nat) (names : Interner) :
    Parser.parse .line limit (utf8 "nil") names = (.ok [.nil ⟨0, 3⟩], names) := by
  have hsymbolic : (utf8 "nil").all isSymbolic = true := by decide
  have hlexeme : Lexeme .symbol (utf8 "nil") :=
    ⟨by decide, by rintro b ⟨⟩; rfl, List.all_eq_true.1 hsymbolic⟩
  have htokens : tokens (utf8 "nil") = ([⟨.symbol, ⟨0, 3⟩, utf8 "nil"⟩], none) := by
    have hscan := scan_append hlexeme (stops_nil _) 0
    rw [scan_nil, List.append_nil] at hscan
    rw [tokens_eq_scan, hscan]
    rfl
  unfold Parser.parse
  rw [htokens]
  rfl

/-- The expression of a line can be printed. -/
theorem print_of_parseLine {limit : Nat} {text : Bytes} {names names' : Interner} {e : Expr}
    (h : parseLine limit text names = (.ok e, names')) : e.print text = .ok (e.write text []) := by
  obtain ⟨es, hparse, rfl⟩ := parse_of_parseLine h
  rcases Parser.parse_line_cases hparse with ⟨rfl, rfl⟩ | ⟨e, rfl⟩
  · rfl
  · exact Expr.print_ok (fits_of_parse_single hparse)

/-- Reading the printed expression of a line gives the same tree but for its places. -/
theorem parseLine_write {limit : Nat} {text : Bytes} {names names' : Interner} {e : Expr}
    (h : parseLine limit text names = (.ok e, names')) :
    ∃ e', parseLine limit (e.write text []) names = (.ok e', names') ∧
      parseLine limit (e.write text []) names' = (.ok e', names') ∧
      e'.bare (e.write text []) = e.bare text := by
  obtain ⟨es, hparse, rfl⟩ := parse_of_parseLine h
  rcases Parser.parse_line_cases hparse with ⟨rfl, rfl⟩ | ⟨e, rfl⟩
  · exact ⟨.nil ⟨0, 3⟩, parseLine_of_parse (parse_nil limit _),
      parseLine_of_parse (parse_nil limit _), rfl⟩
  · obtain ⟨htokens, hfaithful⟩ := Parser.parse_ok hparse
    rw [Expr.tokensAll, Expr.tokensAll, List.append_nil] at htokens
    obtain ⟨hlexes, hessences⟩ := (Expr.lexesAs_write hfaithful.1 (fits_of_parse_single hparse)
      (stops_nil _) lexesAs_nil).tokens
    rw [List.append_nil, htokens] at hessences
    obtain ⟨es', hparse', hbare⟩ := Parser.parse_alike hparse hlexes hessences.symm
    obtain ⟨e', rfl⟩ : ∃ e', es' = [e'] := by
      rw [Expr.bareAll_eq_map, Expr.bareAll_eq_map] at hbare
      exact List.length_eq_one_iff.1 (by simpa using (congrArg List.length hbare).symm)
    exact ⟨e', parseLine_of_parse hparse', parseLine_of_parse (Parser.parse_again hparse'),
      (List.cons.inj hbare).1.symm⟩

/-- The expression of a line can be printed.  Reading the printed text under the same limit, with
the names known before the line or with those known after it, succeeds and gives the same tree but
for its places, and printing that tree gives the same text.  So does every line that gives the same
tree but for its places. -/
theorem parseLine_print {limit : Nat} {text : Bytes} {names names' : Interner} {e : Expr}
    (h : parseLine limit text names = (.ok e, names')) :
    ∃ printed e', e.print text = .ok printed ∧
      parseLine limit printed names = (.ok e', names') ∧
      parseLine limit printed names' = (.ok e', names') ∧
      e'.bare printed = e.bare text ∧ e'.print printed = .ok printed ∧
      ∀ (otherLimit : Nat) (other : Bytes) (before after : Interner) (x : Expr),
        parseLine otherLimit other before = (.ok x, after) → x.bare other = e.bare text →
          x.print other = .ok printed := by
  have halike {otherLimit : Nat} {other : Bytes} {before after : Interner} {x : Expr}
      (hx : parseLine otherLimit other before = (.ok x, after))
      (hbare : x.bare other = e.bare text) : x.print other = .ok (e.write text []) := by
    rw [print_of_parseLine hx, Expr.write_eq_of_bare hbare]
  obtain ⟨e', hread, hagain, hbare⟩ := parseLine_write h
  exact ⟨e.write text [], e', print_of_parseLine h, hread, hagain, hbare, halike hread hbare,
    fun _ _ _ _ _ => halike⟩

/-- Tokens that touch each other and an integer with leading zeros. -/
theorem parseLine_print_touching :
    let printed := utf8 "[7 \"a\" \"b\" if]"
    let bare : Bare := .vector [.integer 7, .string (utf8 "\"a\""), .string (utf8 "\"b\""),
      .symbol 0 (utf8 "if")]
    parseLine 1 (utf8 "[007\"a\"\"b\"if]") {} =
        (.ok (.vector ⟨0, 13⟩ [.integer ⟨1, 4⟩ 7, .string ⟨4, 7⟩, .string ⟨7, 10⟩,
          .symbol ⟨10, 12⟩ 0]), ⟨[utf8 "if"]⟩) ∧
      ∃ e', Expr.print (utf8 "[007\"a\"\"b\"if]") (.vector ⟨0, 13⟩ [.integer ⟨1, 4⟩ 7,
          .string ⟨4, 7⟩, .string ⟨7, 10⟩, .symbol ⟨10, 12⟩ 0]) = .ok printed ∧
        parseLine 1 printed {} = (.ok e', ⟨[utf8 "if"]⟩) ∧
        parseLine 1 printed ⟨[utf8 "if"]⟩ = (.ok e', ⟨[utf8 "if"]⟩) ∧
        e'.bare printed = bare ∧ e'.print printed = .ok printed ∧
        ∀ (otherLimit : Nat) (other : Bytes) (before after : Interner) (x : Expr),
          parseLine otherLimit other before = (.ok x, after) → x.bare other = bare →
            x.print other = .ok printed := by
  intro printed bare
  have h : parseLine 1 (utf8 "[007\"a\"\"b\"if]") {} =
      (.ok (.vector ⟨0, 13⟩ [.integer ⟨1, 4⟩ 7, .string ⟨4, 7⟩, .string ⟨7, 10⟩,
        .symbol ⟨10, 12⟩ 0]), ⟨[utf8 "if"]⟩) := by
    unfold parseLine Parser.parse
    rw [tokens_eq_scan]
    rfl
  have htext : Expr.print (utf8 "[007\"a\"\"b\"if]") (.vector ⟨0, 13⟩ [.integer ⟨1, 4⟩ 7,
      .string ⟨4, 7⟩, .string ⟨7, 10⟩, .symbol ⟨10, 12⟩ 0]) = .ok printed := by
    rw [print_of_parseLine h]
    show Except.ok (0x5b :: (Decimal.ofNat 7 ++ utf8 " \"a\" \"b\" if]")) = _
    rw [Decimal.ofNat_of_lt (by decide)]
    rfl
  obtain ⟨shown, e', hshown, hread⟩ := parseLine_print h
  obtain rfl : shown = printed := Except.ok.inj (hshown.symm.trans htext)
  exact ⟨h, e', hshown, hread⟩

end SpanLisp
