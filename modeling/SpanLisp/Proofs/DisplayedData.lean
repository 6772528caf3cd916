import SpanLisp.Proofs.BindingLists
import SpanLisp.Proofs.TreeReading

/-!
# Displayed data

Strings, functions and negative integers aside, a value is displayed as a literal of itself
(`Value.IsData`).  Its text lexes to the tokens that spell it (`Value.lexesAs_write`), the parser
reads these as a tree that stands for the value (`Parser.steps_essences`), and such a tree evaluates
to the value and does nothing else (`Expr.StandsFor.eval`).
-/

namespace SpanLisp

open ByteLexer

namespace Value

mutual

/-- Is the value displayed as a literal of itself?  Its keywords have names that the lexer can find
behind a colon. -/
def IsData (names : Interner) : Value → Prop
  | nil | bool _ => True
  | integer n => 0 ≤ n.toInt
  | keyword sym =>
    ∃ name, names.name? sym = some name ∧ name ≠ [] ∧ ∀ b ∈ name, isSymbolic b = true
  | vector vs => IsDataAll names vs
  | function _ | string _ | unlisted _ => False

/-- Are all values displayed as literals of themselves? -/
def IsDataAll (names : Interner) : List Value → Prop
  | [] => True
  | v :: vs => IsData names v ∧ IsDataAll names vs

end

mutual

theorem IsData.known {names : Interner} : ∀ {v : Value}, v.IsData names → v.Known names
  | keyword _, ⟨_, hname, _⟩ => (List.getElem?_eq_some_iff.1 hname).1
  | vector _, h => IsDataAll.known h
  | nil, _ | bool _, _ | integer _, _ => trivial

theorem IsDataAll.known {names : Interner} :
    ∀ {vs : List Value}, IsDataAll names vs → KnownAll names vs
  | [], _ => trivial
  | _ :: _, ⟨hv, hvs⟩ => ⟨hv.known, hvs.known⟩

end

/-! ### The tokens of a displayed value -/

mutual

/-- The tokens that a value is displayed as, without their places. -/
def essences (names : Interner) : Value → List (Token.Kind × Bytes)
  | nil => [(.symbol, utf8 "nil")]
  | bool b => [(.symbol, Expr.boolText b)]
  | integer n => [(.integer, Decimal.ofNat n.toInt.toNat)]
  | keyword sym => [(.symbol, keywordText names sym)]
  | vector vs =>
    (.opening .bracket, Delim.bracket.opening) :: essencesAll names vs ++
      [(.closing .bracket, Delim.bracket.closing)]
  | function _ | string _ | unlisted _ => []

/-- The tokens that several values are displayed as, without their places. -/
def essencesAll (names : Interner) : List Value → List (Token.Kind × Bytes)
  | [] => []
  | v :: vs => essences names v ++ essencesAll names vs

end

theorem keywordText_of_name? {names : Interner} {sym : Symbol} {name : Bytes}
    (h : names.name? sym = some name) : keywordText names sym = 0x3a :: name := by
  unfold keywordText symbolText
  rw [h]
  rfl

theorem lexeme_keyword {name : Bytes} (h : ∀ b ∈ name, isSymbolic b = true) :
    Lexeme .symbol (0x3a :: name) := by
  refine ⟨List.cons_ne_nil _ _, ?_, ?_⟩
  · rintro b ⟨⟩
    rfl
  · intro b hb
    rcases List.mem_cons.1 hb with rfl | hb
    · rfl
    · exact h b hb

theorem lexeme_literal {w : Bytes} (h : Expr.IsLiteral w) : Lexeme .symbol w := by
  rcases h with rfl | rfl | rfl
  all_goals
    refine ⟨by decide, ?_, List.all_eq_true.1 rfl⟩
    rintro b ⟨⟩
    rfl

/-- A word in front of bytes that do not go on with it. -/
theorem lexesAs_word {w rest : Bytes} {es : List (Token.Kind × Bytes)} (hw : Lexeme .symbol w)
    (hstop : Stops .symbol rest) (h : LexesAs rest es) :
    LexesAs (w ++ rest) ((.symbol, w) :: es) := by
  have hk : Token.Kind.symbol ≠ .blank := by decide
  exact h.lexeme (t := ⟨.symbol, .point 0, w⟩) hk hw hstop rfl

theorem writeAll_cons (names : Interner) (v w : Value) (ws : List Value) (rest : Bytes) :
    writeAll names (v :: w :: ws) rest =
      write names v (0x20 :: writeAll names (w :: ws) rest) := by
  rw [writeAll]
  simp

mutual

/-- What is displayed for a value lexes to the tokens of the value. -/
theorem lexesAs_write {names : Interner} :
    ∀ {v : Value} {rest : Bytes} {es : List (Token.Kind × Bytes)}, v.IsData names →
      Stops .symbol rest → LexesAs rest es →
      LexesAs (v.write names rest) (v.essences names ++ es)
  | nil, _, _, _, hstop, h => lexesAs_word (lexeme_literal (.inr (.inr rfl))) hstop h
  | bool b, _, _, _, hstop, h => by
    cases b
    · exact lexesAs_word (lexeme_literal (.inr (.inl rfl))) hstop h
    · exact lexesAs_word (lexeme_literal (.inl rfl)) hstop h
  | integer n, rest, es, hn, hstop, h => by
    have htext : Decimal.ofInt n.toInt = Decimal.ofNat n.toInt.toNat := by
      rw [← Int.toNat_of_nonneg hn]
      rfl
    have hlexeme : Lexeme .integer (Decimal.ofNat n.toInt.toNat) :=
      ⟨Decimal.ofNat_ne_nil _, fun b hb => Decimal.isDigit_of_mem_ofNat hb⟩
    have hk : Token.Kind.integer ≠ .blank := by decide
    have hlexes := h.lexeme (t := ⟨.integer, .point 0, Decimal.ofNat n.toInt.toNat⟩) hk hlexeme
      (hstop.of_symbol hk) rfl
    simp only [Token.essence, if_pos, Decimal.toNat_ofNat] at hlexes
    rw [write, htext]
    exact hlexes
  | keyword sym, rest, es, ⟨name, hname, _, hsymbolic⟩, hstop, h => by
    rw [write, essences, keywordText_of_name? hname]
    exact lexesAs_word (lexeme_keyword hsymbolic) hstop h
  | vector vs, rest, es, hvs, _, h => by
    have hclose : LexesAs (Delim.bracket.closing ++ rest) _ :=
      h.lexeme (t := Expr.closeToken .bracket 0) (by decide) rfl (fun _ _ => trivial) rfl
    have hstop : Stops .symbol (Delim.bracket.closing ++ rest) := by
      rintro b ⟨⟩
      rfl
    have hopen : LexesAs (Delim.bracket.opening ++
        writeAll names vs (Delim.bracket.closing ++ rest)) _ :=
      (lexesAs_writeAll hvs hstop hclose).lexeme (t := Expr.openToken .bracket 0) (by decide) rfl
        (fun _ _ => trivial) rfl
    rw [essences, List.cons_append, List.cons_append, List.append_assoc]
    exact hopen

theorem lexesAs_writeAll {names : Interner} :
    ∀ {vs : List Value} {rest : Bytes} {es : List (Token.Kind × Bytes)}, IsDataAll names vs →
      Stops .symbol rest → LexesAs rest es →
      LexesAs (writeAll names vs rest) (essencesAll names vs ++ es)
  | [], _, _, _, _, h => h
  | [v], _, _, hvs, hstop, h => by
    rw [writeAll, essencesAll, essencesAll, List.append_nil]
    exact lexesAs_write hvs.1 hstop h
  | v :: w :: ws, rest, es, hvs, hstop, h => by
    have hrest := lexesAs_writeAll hvs.2 hstop h
    rw [writeAll_cons, essencesAll, List.append_assoc]
    refine lexesAs_write hvs.1 ?_ hrest.space
    rintro b ⟨⟩
    rfl

end

end Value

/-! ### Trees that stand for values -/

namespace Expr

mutual

/-- Is the tree a literal of the value? -/
def StandsFor : Expr → Value → Prop
  | nil _, .nil => True
  | bool _ b, .bool c => b = c
  | integer _ m, .integer n => m = n
  | keyword _ a, .keyword b => a = b
  | vector _ xs, .vector vs => StandForAll xs vs
  | _, _ => False

/-- Are the trees literals of the values, one by one? -/
def StandForAll : List Expr → List Value → Prop
  | [], [] => True
  | x :: xs, v :: vs => StandsFor x v ∧ StandForAll xs vs
  | _, _ => False

end

/-- Without a limit, counting an evaluation does not show. -/
theorem guarded_of_ok {α : Type} {opts : EvalOptions} (hlimit : opts.limit = 0) {span : Span}
    {x : EvalM α} {a : α} (h : ∀ m, x m = (.ok a, m)) (m : Machine) :
    EvalM.guarded opts span x m = (.ok a, m) := by
  unfold EvalM.guarded
  simp only [hlimit]
  rw [if_neg (by omega), h]
  rfl

mutual

/-- A literal evaluates to its value and changes nothing. -/
theorem StandsFor.eval {opts : EvalOptions} (hlimit : opts.limit = 0) (source : Bytes) :
    ∀ {e : Expr} {v : Value}, e.StandsFor v → ∀ m, e.eval opts source m = (.ok v, m)
  | nil _, .nil, _ | bool _ _, .bool _, rfl | integer _ _, .integer _, rfl
  | keyword _ _, .keyword _, rfl => guarded_of_ok hlimit fun _ => rfl
  | vector span xs, .vector vs, h => by
    rw [Expr.eval]
    refine guarded_of_ok hlimit fun m => ?_
    rw [EvalM.bind_of_ok (StandForAll.evalAll hlimit source h m)]
    rfl

theorem StandForAll.evalAll {opts : EvalOptions} (hlimit : opts.limit = 0) (source : Bytes) :
    ∀ {es : List Expr} {vs : List Value}, StandForAll es vs →
      ∀ m, SpanLisp.evalAll opts source es m = (.ok vs, m)
  | [], [], _, _ => rfl
  | e :: es, v :: vs, ⟨he, hes⟩, m => by
    rw [SpanLisp.evalAll, EvalM.bind_of_ok (he.eval hlimit source m),
      EvalM.bind_of_ok (StandForAll.evalAll hlimit source hes m)]
    rfl

end

end Expr

/-! ### Reading a displayed value -/

namespace Parser

/-- A word that is no operator and adds no name is read as the leaf that it spells. -/
theorem steps_of_word {st : State} {t : Token} {w : Bytes} {e : Span → Expr}
    (hop : Operator.ofName? w = none) (hword : ∀ s, word s w st.names = (e s, st.names))
    (ht : t.essence = (.symbol, w)) : Steps .script 0 st [t] (st.add (e t.span)) := by
  have hkind : t.kind = .symbol := congrArg Prod.fst ht
  have htext : t.text = w :=
    Token.text_eq_of_essence (u := ⟨.symbol, .point 0, w⟩) ht (by rw [hkind]; decide)
  subst htext
  have hread : Reads .script 0 st t _ := .word hkind (lineIsOver_script st)
  rw [wordAt_of_ofName?_eq_none hop, hword] at hread
  exact ⟨_, hread, rfl⟩

mutual

/-- Tokens that spell a value are read as a literal of it, whatever is open around them.  The names
know its keywords already, so none is added. -/
theorem steps_essences : ∀ {v : Value} {st : State} {ts : List Token}, st.names.names.Nodup →
    v.IsData st.names → ts.map Token.essence = v.essences st.names →
      ∃ e, Steps .script 0 st ts (st.add e) ∧ e.StandsFor v
  | .nil, st, ts, _, _, hts => by
    obtain ⟨t, rfl, ht⟩ := List.map_eq_singleton_iff.1 hts
    exact ⟨_, steps_of_word (e := .nil) rfl (fun _ => rfl) ht, trivial⟩
  | .bool b, st, ts, _, _, hts => by
    obtain ⟨t, rfl, ht⟩ := List.map_eq_singleton_iff.1 hts
    refine ⟨_, steps_of_word (e := (.bool · b)) ?_ (fun _ => ?_) ht, rfl⟩
    · cases b <;> rfl
    · cases b <;> rfl
  | .integer n, st, ts, _, hn, hts => by
    obtain ⟨t, rfl, ht⟩ := List.map_eq_singleton_iff.1 hts
    have hkind : t.kind = .integer := congrArg Prod.fst ht
    have hvalue : Decimal.toNat t.text = n.toInt.toNat := by
      rw [← Decimal.toNat_ofNat n.toInt.toNat]
      apply Token.toNat_eq_of_essence (u := ⟨.integer, .point 0, Decimal.ofNat n.toInt.toNat⟩)
      · rw [ht, Token.essence, if_pos rfl, Decimal.toNat_ofNat]
      · exact hkind
    have hlt := n.toInt_lt
    have hn' : 0 ≤ n.toInt := hn
    have hfits : Decimal.toNat t.text ≤ maxInteger := by
      unfold maxInteger
      omega
    have hread : Reads .script 0 st t _ := .integer hkind (lineIsOver_script st) hfits
    refine ⟨_, ⟨_, hread, rfl⟩, ?_⟩
    show Int64.ofNat (Decimal.toNat t.text) = n
    rw [hvalue, ← Int64.ofInt_eq_ofNat, Int.toNat_of_nonneg hn', Int64.ofInt_toInt]
  | .keyword sym, st, ts, hnodup, ⟨name, hname, hne, _⟩, hts => by
    rw [Value.essences, Value.keywordText_of_name? hname] at hts
    obtain ⟨t, rfl, ht⟩ := List.map_eq_singleton_iff.1 hts
    have hfind : st.names.find? name = some sym := (Interner.find?_eq_some_iff hnodup).2 hname
    have hword (s : Span) : word s (0x3a :: name) st.names = (.keyword s sym, st.names) := by
      rw [word_of_keyword hne, Interner.intern_of_find? hfind]
    exact ⟨_, steps_of_word (ofName?_of_keyword ⟨name, hne, rfl⟩) hword ht, rfl⟩
  | .vector vs, ⟨pending, complete, names⟩, ts, hnodup, hvs, hts => by
    rw [Value.essences, List.cons_append] at hts
    obtain ⟨t, ts, rfl, ht, hts⟩ := List.map_eq_cons_iff.1 hts
    obtain ⟨us, ts, rfl, hus, hts⟩ := List.map_eq_append_iff.1 hts
    obtain ⟨u, rfl, hu⟩ := List.map_eq_singleton_iff.1 hts
    have hopen : t.kind = .opening .bracket := congrArg Prod.fst ht
    have hclose : u.kind = .closing .bracket := congrArg Prod.fst hu
    obtain ⟨xs, helems, hxs⟩ := @steps_essencesAll vs .bracket t.span.lo [] pending complete names
      us hnodup hvs hus
    rw [List.append_nil] at helems
    refine ⟨.vector ⟨t.span.lo, u.span.hi⟩ xs, ?_, hxs⟩
    refine ⟨_, .opening .bracket hopen (lineIsOver_script _) (by decide) (by omega),
      helems.append ⟨_, .closing _ pending rfl hclose (lineIsOver_script _), ?_⟩⟩
    simp only [List.reverse_reverse]
    rfl

theorem steps_essencesAll : ∀ {vs : List Value} {d : Delim} {lo : Nat} {elems : List Expr}
    {ps : List Pending} {complete : List Expr} {names : Interner} {ts : List Token},
      names.names.Nodup → Value.IsDataAll names vs →
      ts.map Token.essence = Value.essencesAll names vs →
      ∃ xs, Steps .script 0 ⟨⟨d, lo, elems⟩ :: ps, complete, names⟩ ts
        ⟨⟨d, lo, xs.reverse ++ elems⟩ :: ps, complete, names⟩ ∧ Expr.StandForAll xs vs
  | [], _, _, _, _, _, _, ts, _, _, hts => by
    obtain rfl := List.map_eq_nil_iff.1 hts
    exact ⟨[], rfl, trivial⟩
  | v :: vs, d, lo, elems, ps, complete, names, ts, hnodup, ⟨hv, hvs⟩, hts => by
    obtain ⟨us, ts, rfl, hus, hts⟩ := List.map_eq_append_iff.1 hts
    obtain ⟨x, hfirst, hx⟩ := @steps_essences v ⟨⟨d, lo, elems⟩ :: ps, complete, names⟩ us hnodup
      hv hus
    obtain ⟨xs, hrest, hxs⟩ := @steps_essencesAll vs d lo (x :: elems) ps complete names ts hnodup
      hvs hts
    refine ⟨x :: xs, ?_, hx, hxs⟩
    rw [List.reverse_cons, List.append_assoc, List.singleton_append]
    exact hfirst.append hrest

end

/-- The display of a value reads as a line with a literal of the value. -/
theorem parse_write {names : Interner} (hnodup : names.names.Nodup) {v : Value}
    (hv : v.IsData names) :
    ∃ e, parse .line 0 (v.write names []) names = (.ok [e], names) ∧ e.StandsFor v := by
  obtain ⟨hlexes, hessences⟩ := (Value.lexesAs_write hv (stops_nil _) lexesAs_nil).tokens
  rw [List.append_nil] at hessences
  obtain ⟨e, hsteps, he⟩ := @steps_essences v { names := names } _ hnodup hv hessences
  refine ⟨e, parse_line_ok_iff.2 ⟨?_, Nat.le_refl _⟩, he⟩
  exact parse_ok_iff.2 ⟨hlexes, _, steps_filter.2 hsteps, rfl, rfl, rfl⟩

end Parser

end SpanLisp
