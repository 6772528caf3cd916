import SpanLisp.Proofs.DepthLimits
import SpanLisp.Proofs.ReadingInside
import SpanLisp.Proofs.Writes

/-! The bindings of a `let*` may stand between parentheses or between brackets: the two lines are
read and evaluated alike, unless the bindings come in pairs and the first name is an operator's. -/

namespace SpanLisp

open ByteLexer

/-! ### The tokens of the line -/

/-- The line `(let* (bindings) body)`, with the given delimiters around the bindings. -/
def letLine (d : Delim) (bindings body : Bytes) : Bytes :=
  utf8 "(let* " ++ d.opening ++ bindings ++ d.closing ++ utf8 " " ++ body ++ utf8 ")"

/-- What lexes without error goes on with what follows, if no token goes on there. -/
theorem solidScan_append {t rest : Bytes} {pos : Nat} (h : (scan pos t).2 = none)
    (hstops : ∀ kind, Stops kind rest) :
    solidScan pos (t ++ rest) = ((solidScan pos t).1 ++ (solidScan (pos + t.length) rest).1,
      (solidScan (pos + t.length) rest).2) := by
  have hall : scan pos t = ((scan pos t).1 ++ [], none) := by
    rw [List.append_nil]
    exact Prod.ext rfl h
  obtain ⟨w, r, hsplit, hnil, hcut⟩ := exists_cut hall
  obtain rfl := scan_eq_nil hnil
  rw [List.append_nil] at hsplit
  subst hsplit
  unfold solidScan
  rw [hcut rest fun kind _ => hstops kind, List.filter_append]

theorem solidScan_shift {t : Bytes} (h : (tokens t).2 = none) (k : Nat) :
    (scan k t).2 = none ∧ (solidScan k t).1 = (solidTokens t).map (Token.shift k) := by
  obtain ⟨hshift, hnone⟩ := scan_shift k 0 t
  rw [tokens_eq_scan] at h
  rw [Nat.zero_add] at hshift hnone
  refine ⟨hnone h, ?_⟩
  rw [solidScan, hshift, List.filter_map, solidTokens, tokens_eq_scan]
  rfl

theorem stops_closing (kind : Token.Kind) (d : Delim) (rest : Bytes) :
    Stops kind (d.closing ++ rest) :=
  endsLike_append (by cases d <;> decide) [] rest kind (Parser.stops_closers kind [d])

theorem solidScan_opening (pos : Nat) (d : Delim) (rest : Bytes) :
    solidScan pos (d.opening ++ rest) =
      (Expr.openToken d pos :: (solidScan (pos + 1) rest).1, (solidScan (pos + 1) rest).2) := by
  have hlexeme : Lexeme (.opening d) d.opening := rfl
  rw [solidScan_token hlexeme (fun _ _ => trivial) (by simp)]
  cases d <;> rfl

theorem solidScan_closing (pos : Nat) (d : Delim) (rest : Bytes) :
    solidScan pos (d.closing ++ rest) =
      (Expr.closeToken d (pos + 1) :: (solidScan (pos + 1) rest).1,
        (solidScan (pos + 1) rest).2) := by
  have hlexeme : Lexeme (.closing d) d.closing := rfl
  rw [solidScan_token hlexeme (fun _ _ => trivial) (by simp)]
  cases d <;> rfl

/-- The tokens of the line, blanks left out. -/
def letTokens (d : Delim) (bindings body : Bytes) : List Token :=
  [Expr.openToken .paren 0, ⟨.symbol, ⟨1, 5⟩, utf8 "let*"⟩] ++ ([Expr.openToken d 6] ++
    ((solidTokens bindings).map (Token.shift 7) ++ ([Expr.closeToken d (7 + bindings.length + 1)] ++
      ((solidTokens body).map (Token.shift (7 + bindings.length + 2)) ++
        [Expr.closeToken .paren (7 + bindings.length + 2 + body.length + 1)]))))

theorem solidScan_letLine (d : Delim) {bindings body : Bytes}
    (hbindings : (tokens bindings).2 = none) (hbody : (tokens body).2 = none) :
    solidScan 0 (letLine d bindings body) = (letTokens d bindings body, none) := by
  have hsplit : letLine d bindings body = Delim.paren.opening ++ (utf8 "let*" ++ (utf8 " " ++
      (d.opening ++ (bindings ++ (d.closing ++ (utf8 " " ++ (body ++
        (Delim.paren.closing ++ [])))))))) := by
    simp only [letLine, List.append_assoc, List.append_nil]
    rfl
  have hlet : Lexeme .symbol (utf8 "let*") := by
    refine ⟨List.cons_ne_nil _ _, fun b hb => ?_, List.all_eq_true.1 rfl⟩
    obtain rfl : 0x6c = b := Option.some.inj hb
    rfl
  have hblank : ∀ b ∈ utf8 " ", isBlank b = true := List.forall_mem_singleton.2 rfl
  have hspace (rest : Bytes) : Stops .symbol (utf8 " " ++ rest) := by
    intro b hb
    obtain rfl : 0x20 = b := Option.some.inj hb
    decide
  obtain ⟨hlexes, hsolid⟩ := solidScan_shift hbindings 7
  obtain ⟨hlexes', hsolid'⟩ := solidScan_shift hbody (7 + bindings.length + 2)
  rw [hsplit, solidScan_opening, solidScan_token hlet (hspace _) (by decide),
    solidScan_blanks hblank, solidScan_opening]
  rw [show 0 + 1 + (utf8 "let*").length + (utf8 " ").length + 1 = 7 from rfl,
    solidScan_append hlexes fun kind => stops_closing kind d _, hsolid, solidScan_closing,
    solidScan_blanks hblank]
  rw [show 7 + bindings.length + 1 + (utf8 " ").length = 7 + bindings.length + 2 from rfl,
    solidScan_append hlexes' fun kind => stops_closing kind .paren _, hsolid', solidScan_closing]
  rfl

/-! ### Reading the line -/

/-- The tree of the line, with the elements of its binding list and what stands behind it. -/
def letTree (d : Delim) (bindings body : Bytes) (elems rest : List Expr) : Expr :=
  .list ⟨0, 7 + bindings.length + 2 + body.length + 1⟩ (.operator ⟨1, 5⟩ .letStar ::
    Parser.sequence d ⟨6, 7 + bindings.length + 1⟩ (Expr.shiftAll 7 elems) ::
      Expr.shiftAll (7 + bindings.length + 2) rest)

namespace Parser

variable {limit : Nat} {names names₁ names₂ : Interner} {bindings body : Bytes} {bs es : List Expr}

theorem parse_of_solidScan {text : Bytes} {ts : List Token}
    (h : solidScan 0 text = (ts, none)) (mode : Mode) (limit : Nat) (names : Interner) :
    parse mode limit text names = run mode limit text.length none ts { names := names } := by
  obtain ⟨rfl, hnone⟩ := Prod.mk.inj h
  unfold parse
  simp only
  rw [run_filter, tokens_eq_scan, hnone]

theorem abreast_opening (limit : Nat) {st : State} (hover : st.lineIsOver .line = false)
    (lo : Nat) :
    Abreast limit st [Expr.openToken .paren lo]
      { st with pending := ⟨.paren, lo, []⟩ :: st.pending }
      st [Expr.openToken .bracket lo] { st with pending := ⟨.bracket, lo, []⟩ :: st.pending } := by
  by_cases hdeep : 0 < limit ∧ limit < st.pending.length + 1
  · have hstep (d : Delim) (hd : d ≠ .brace) : step .line limit st (Expr.openToken d lo) =
        .error ⟨.nestingTooDeep, ⟨lo, lo + 1⟩⟩ := by
      simp [step, Expr.openToken, hover, hd, hdeep]
    exact .inl ⟨_, _, refuses_of_step_error (hstep .paren (by decide)),
      refuses_of_step_error (hstep .bracket (by decide))⟩
  · exact abreast_of_reads (.opening .paren rfl hover (by decide) hdeep)
      (.opening .bracket rfl hover (by decide) hdeep)

/-- The list that the line opens, with its operator. -/
def letOpened : Pending := ⟨.paren, 0, [.operator ⟨1, 5⟩ .letStar]⟩

/-- That list behind its bindings. -/
def letBound (d : Delim) (bindings : Bytes) (elems : List Expr) : Pending :=
  ⟨.paren, 0, [sequence d ⟨6, 7 + bindings.length + 1⟩ (Expr.shiftAll 7 elems),
    .operator ⟨1, 5⟩ .letStar]⟩

theorem reverse_map_shift_reverse (k : Nat) (xs : List Expr) :
    (xs.reverse.map (Expr.shift k)).reverse = Expr.shiftAll k xs := by
  rw [List.map_reverse, List.reverse_reverse, Expr.shiftAll_eq_map]

theorem steps_letOpened (limit : Nat) (names : Interner) :
    Steps .line limit { names := names }
      [Expr.openToken .paren 0, ⟨.symbol, ⟨1, 5⟩, utf8 "let*"⟩]
      ⟨[letOpened], [], (names.intern (utf8 "let*")).2⟩ :=
  ⟨_, .opening .paren rfl rfl (by decide) (by simp only [List.length_nil]; omega), _,
    .word rfl rfl, rfl⟩

theorem reads_letBound (limit : Nat) (d : Delim) (bindings : Bytes) (elems : List Expr)
    (names : Interner) :
    Reads .line limit ⟨[⟨d, 6, elems.reverse.map (Expr.shift 7)⟩, letOpened], [], names⟩
      (Expr.closeToken d (7 + bindings.length + 1)) ⟨[letBound d bindings elems], [], names⟩ := by
  have hread : Reads .line limit
      ⟨[⟨d, 6, elems.reverse.map (Expr.shift 7)⟩, letOpened], [], names⟩
      (Expr.closeToken d (7 + bindings.length + 1)) _ := .closing _ _ rfl rfl rfl
  rwa [reverse_map_shift_reverse] at hread

theorem reads_letTree (limit : Nat) (d : Delim) (bindings body : Bytes) (elems rest : List Expr)
    (names : Interner) :
    Reads .line limit ⟨[{ letBound d bindings elems with
        elems := rest.reverse.map (Expr.shift (7 + bindings.length + 2)) ++
          (letBound d bindings elems).elems }], [], names⟩
      (Expr.closeToken .paren (7 + bindings.length + 2 + body.length + 1))
      ⟨[], [letTree d bindings body elems rest], names⟩ := by
  have hread : Reads .line limit ⟨[{ letBound d bindings elems with
        elems := rest.reverse.map (Expr.shift (7 + bindings.length + 2)) ++
          (letBound d bindings elems).elems }], [], names⟩
      (Expr.closeToken .paren (7 + bindings.length + 2 + body.length + 1)) _ :=
    .closing _ _ rfl rfl rfl
  rwa [List.reverse_append, reverse_map_shift_reverse] at hread

section Line

variable (hbindings : parse .script 0 bindings (names.intern (utf8 "let*")).2 = (.ok bs, names₁))
  (hbody : parse .script 0 body names₁ = (.ok es, names₂))
include hbindings hbody

/-- The tokens of the two lines are refused alike, or both are read, as trees that differ in the
binding list alone. -/
theorem abreast_letLine (limit : Nat) :
    Abreast limit { names := names } (letTokens .paren bindings body)
      ⟨[], [letTree .paren bindings body (asList bindings bs) es], names₂⟩
      { names := names } (letTokens .bracket bindings body)
      ⟨[], [letTree .bracket bindings body bs es], names₂⟩ := by
  have hopened := steps_letOpened limit names
  have hbound (d : Delim) (elems : List Expr) : (letBound d bindings elems).elems ≠ [] :=
    List.cons_ne_nil _ _
  exact Abreast.append (.inr ⟨hopened, hopened⟩) ((abreast_opening limit rfl 6).append
    ((abreast_elements hbindings limit 7 6 [letOpened]).append
      ((abreast_of_reads (reads_letBound limit .paren bindings _ names₁)
        (reads_letBound limit .bracket bindings _ names₁)).append
        ((abreast_more hbody limit _ (hbound _ _) (hbound _ _) []).append
          (abreast_of_reads (reads_letTree limit .paren bindings body _ es names₂)
            (reads_letTree limit .bracket bindings body _ es names₂))))))

theorem parse_letLine (limit : Nat) :
    (∃ e names', parse .line limit (letLine .paren bindings body) names = (.error e, names') ∧
      parse .line limit (letLine .bracket bindings body) names = (.error e, names')) ∨
    parse .line limit (letLine .paren bindings body) names =
        (.ok [letTree .paren bindings body (asList bindings bs) es], names₂) ∧
      parse .line limit (letLine .bracket bindings body) names =
        (.ok [letTree .bracket bindings body bs es], names₂) := by
  have hscan (d : Delim) : solidScan 0 (letLine d bindings body) =
      (letTokens d bindings body, none) :=
    solidScan_letLine d (parse_ok_iff.1 hbindings).1 (parse_ok_iff.1 hbody).1
  rw [parse_of_solidScan (hscan .paren), parse_of_solidScan (hscan .bracket)]
  rcases abreast_letLine hbindings hbody limit with ⟨e, names', hlist, hvector⟩ | ⟨hlist, hvector⟩
  · refine .inl ⟨e, names', ?_, ?_⟩
    · rw [← List.append_nil (letTokens _ _ _)]
      exact hlist _ _ []
    · rw [← List.append_nil (letTokens _ _ _)]
      exact hvector _ _ []
  · rw [run_of_steps hlist, run_of_steps hvector]
    exact .inr ⟨rfl, rfl⟩

end Line

end Parser

/-! ### Evaluating the line -/

theorem slice_letLine_bindings {bindings : Bytes} {s : Span} (h : s.Within bindings.length)
    (d : Delim) (body : Bytes) :
    slice (letLine d bindings body) (s.shift 7) = slice bindings s := by
  have hlength : (utf8 "(let* " ++ d.opening).length = 7 := by cases d <;> rfl
  rw [slice_shift h (utf8 "(let* " ++ d.opening) (d.closing ++ (utf8 " " ++ (body ++ utf8 ")"))),
    hlength, letLine]
  simp only [List.append_assoc]

theorem slice_letLine_body {body : Bytes} {s : Span} (h : s.Within body.length) (d : Delim)
    (bindings : Bytes) :
    slice (letLine d bindings body) (s.shift (7 + bindings.length + 2)) = slice body s := by
  have hlength : (utf8 "(let* " ++ (d.opening ++ (bindings ++ (d.closing ++ utf8 " ")))).length =
      7 + bindings.length + 2 := by
    have hopening : d.opening.length = 1 := by cases d <;> rfl
    have hclosing : d.closing.length = 1 := by cases d <;> rfl
    have hlet : (utf8 "(let* ").length = 6 := rfl
    have hblank : (utf8 " ").length = 1 := rfl
    simp only [List.length_append]
    omega
  rw [slice_shift h (utf8 "(let* " ++ (d.opening ++ (bindings ++ (d.closing ++ utf8 " "))))
    (utf8 ")"), hlength, letLine]
  simp only [List.append_assoc]

theorem evalLet_list_eq_vector (opts : EvalOptions) (source : Bytes) (span s : Span)
    (elems rest : List Expr) :
    evalLet opts source span (.list s elems :: rest) =
      evalLet opts source span (.vector s elems :: rest) := by
  cases rest with
  | nil => rfl
  | cons e rest => cases rest <;> rfl

/-- A binding list of odd length is refused whatever its elements are. -/
theorem parallel_evalLet_of_odd (opts : EvalOptions) (a b : Bytes) (span s : Span)
    {xs ys : List Expr} (hxs : xs.length % 2 = 1) (hys : ys.length % 2 = 1) (rest : List Expr) :
    Parallel Eq (evalLet opts a span (.vector s xs :: rest))
      (evalLet opts b span (.vector s ys :: rest)) := by
  cases rest with
  | nil => exact parallel_fail _ rfl
  | cons e rest =>
    cases rest with
    | cons e' rest => exact parallel_fail _ rfl
    | nil =>
      rw [evalLet, evalLet, if_pos (by omega), if_pos (by omega)]
      exact parallel_fail _ rfl

theorem length_asList (text : Bytes) (es : List Expr) : (asList text es).length = es.length := by
  unfold asList
  cases h : firstOperator? text es with
  | none => rfl
  | some r =>
    cases es with
    | nil => cases h
    | cons e es => rfl

theorem eval_letTree (opts : EvalOptions) (source : Bytes) {d : Delim} (hd : d ≠ .brace)
    (bindings body : Bytes) (elems rest : List Expr) :
    (letTree d bindings body elems rest).eval opts source =
      EvalM.guarded opts ⟨0, 7 + bindings.length + 2 + body.length + 1⟩
        (evalLet opts source ⟨0, 7 + bindings.length + 2 + body.length + 1⟩
          (.vector ⟨6, 7 + bindings.length + 1⟩ (Expr.shiftAll 7 elems) ::
            Expr.shiftAll (7 + bindings.length + 2) rest)) := by
  rw [letTree, Expr.eval]
  cases d with
  | paren =>
    rw [← evalLet_list_eq_vector]
    rfl
  | bracket => rfl
  | brace => exact absurd rfl hd

/-- The two lines evaluate alike if no operator's name is in front of the bindings, or if they do
not come in pairs. -/
theorem parallel_letTree {bindings body : Bytes} {bs es : List Expr}
    (hbs : ∀ n ∈ Expr.nodesAll bs, n.span.Within bindings.length)
    (hes : ∀ n ∈ Expr.nodesAll es, n.span.Within body.length)
    (hagree : firstOperator? bindings bs = none ∨ bs.length % 2 = 1) (opts : EvalOptions) :
    Parallel Eq
      ((letTree .paren bindings body (asList bindings bs) es).eval opts
        (letLine .paren bindings body))
      ((letTree .bracket bindings body bs es).eval opts (letLine .bracket bindings body)) := by
  rw [eval_letTree opts _ (by decide), eval_letTree opts _ (by decide)]
  refine Parallel.guarded ?_ opts rfl
  rcases hagree with hnone | hodd
  · rw [asList, hnone]
    have helems := congruentAll_shift (j := 7) (k := 7) (R := Eq) (fun _ => rfl) fun n hn =>
      (slice_letLine_bindings (hbs n hn) .paren body).trans
        (slice_letLine_bindings (hbs n hn) .bracket body).symm
    have hrest := congruentAll_shift (j := 7 + bindings.length + 2) (k := 7 + bindings.length + 2)
      (R := Eq) (fun _ => rfl) fun n hn =>
        (slice_letLine_body (hes n hn) .paren bindings).trans
          (slice_letLine_body (hes n hn) .bracket bindings).symm
    exact parallel_evalLet rfl _ (.cons (.vector rfl helems) hrest)
  · refine parallel_evalLet_of_odd opts _ _ _ _ ?_ ?_ _
    · rw [Expr.shiftAll_eq_map, List.length_map, length_asList, hodd]
    · rw [Expr.shiftAll_eq_map, List.length_map, hodd]

/-- Where a name is due, an operator is refused. -/
theorem result_evalLet_of_operator (opts : EvalOptions) (source : Bytes) (span s place : Span)
    (op : Operator) {elems : List Expr} (hodd : elems.length % 2 = 1) (body : Expr) {m : Machine}
    (hsize : m.stack.frames.size = m.stack.height) :
    (evalLet opts source span [.vector s (.operator place op :: elems), body] m).1 =
      .error (.failed ⟨.expectedSymbol, place⟩) := by
  rw [result_evalLet opts source span s (by rw [List.length_cons]; omega) body hsize]
  cases elems with
  | nil => cases hodd
  | cons e elems => rfl

theorem result_letTree_of_operator {bindings body : Bytes} {bs : List Expr} {place : Span}
    {op : Operator} (hop : firstOperator? bindings bs = some (place, op))
    (heven : bs.length % 2 = 0) (opts : EvalOptions) (source : Bytes) (e : Expr) {m : Machine}
    (hsize : m.stack.frames.size = m.stack.height) (hdepth : m.depth = 0) :
    ((letTree .paren bindings body (asList bindings bs) [e]).eval opts source m).1 =
      .error (.failed ⟨.expectedSymbol, place.shift 7⟩) := by
  rw [eval_letTree opts _ (by decide), result_guarded opts _ _ hdepth, asList, hop]
  refine result_evalLet_of_operator opts source _ _ _ op ?_ _ hsize
  rw [Expr.shiftAll_eq_map, List.length_map]
  cases bs with
  | nil => cases hop
  | cons b bs =>
    rw [List.length_cons] at heven
    rw [List.tail_cons]
    omega

/-! ### Accepted texts -/

theorem Expr.SameAll.firstOperator?_eq {t u : Interner} {xs ys : List Expr}
    (h : SameAll t u xs ys) (text : Bytes) : firstOperator? text xs = firstOperator? text ys := by
  cases h with
  | nil => rfl
  | cons h hs => cases h <;> rfl

namespace Parser

/-- What is accepted with one limit and some names met before is accepted without limit, whatever
names have been met. -/
theorem exists_parse {limit : Nat} {text : Bytes} {names : Interner} {es : List Expr}
    (h : (parse .script limit text names).1 = .ok es) (names₁ : Interner) :
    ∃ es₁ names₂, parse .script 0 text names₁ = (.ok es₁, names₂) ∧
      es₁.length = es.length ∧ firstOperator? text es₁ = firstOperator? text es := by
  have hfree : (parse .script 0 text names).1 = .ok es := by
    rcases Nat.eq_zero_or_pos limit with rfl | hpos
    · exact h
    rcases parse_looser (looser_of_le hpos (.inl rfl)) .script text names with ⟨span, hdeep⟩ | heq
    · rw [h] at hdeep
      cases hdeep
    · rw [heq, h]
  have hsame := same_parse .script 0 text names names₁
  rw [hfree] at hsame
  cases hes : (parse .script 0 text names₁).1 with
  | error e =>
    rw [hes] at hsame
    cases hsame
  | ok es₁ =>
    rw [hes] at hsame
    cases hsame with
    | ok hall =>
      exact ⟨es₁, _, Prod.ext hes rfl, (Expr.sameAll_iff.1 hall).length_eq.symm,
        (hall.firstOperator?_eq text).symm⟩

end Parser

theorem blank_of_solidScan (pos : Nat) (t : Bytes) :
    solidScan pos t = ([], none) → ∀ b ∈ t, isBlank b = true := by
  induction pos, t using scan_induction with
  | nil pos => exact fun _ b hb => absurd hb List.not_mem_nil
  | failed pos b bs kind run hfront =>
    intro h
    rw [solidScan, scan_failed hfront] at h
    cases h
  | token pos b bs kind run rest hfront ih =>
    intro h
    obtain ⟨hlexeme, hstops⟩ := lexeme_of_front hfront
    obtain ⟨hsplit, -⟩ := eq_append_of_front hfront
    rw [hsplit] at h ⊢
    by_cases hk : kind = .blank
    · subst hk
      rw [solidScan_blanks hlexeme.2] at h
      intro c hc
      rcases List.mem_append.1 hc with hc | hc
      · exact hlexeme.2 c hc
      · exact ih h c hc
    · rw [solidScan_token hlexeme hstops hk] at h
      cases h

/-- A script that holds no expression is blank. -/
theorem blank_of_parse {limit : Nat} {text : Bytes} {names names' : Interner}
    (h : Parser.parse .script limit text names = (.ok [], names')) :
    ∀ b ∈ text, isBlank b = true := by
  have hsolid := (Parser.parse_ok h).1
  have hnone := (Parser.parse_ok_iff.1 h).1
  rw [tokens_eq_scan] at hsolid hnone
  exact blank_of_solidScan 0 text (Prod.ext hsolid.symm hnone)

theorem eq_singleton_of_solid {limit : Nat} {text : Bytes} {names names' : Interner}
    {es : List Expr} (h : Parser.parse .script limit text names = (.ok es, names'))
    (hlength : es.length ≤ 1) (hsolid : ∃ b ∈ text, isBlank b = false) : ∃ e, es = [e] := by
  cases es with
  | nil =>
    obtain ⟨b, hb, hblank⟩ := hsolid
    rw [blank_of_parse h b hb] at hblank
    cases hblank
  | cons e es =>
    rw [List.length_cons] at hlength
    exact ⟨e, by rw [List.length_eq_zero_iff.1 (by omega : es.length = 0)]⟩

namespace Session

variable {s : Session} {line : Bytes}

theorem evalLine_of_parse {e : Expr} {names : Interner}
    (h : Parser.parse .line s.options.limit line s.names = (.ok [e], names)) :
    s.evalLine line = { s with names := names }.run (e.eval s.options line) := by
  rw [evalLine_eq_afterReading, parseLine_of_parse h]
  rfl

theorem evalLine_of_parse_error {e : SyntaxError} {names : Interner}
    (h : Parser.parse .line s.options.limit line s.names = (.error e, names)) :
    s.evalLine line = ⟨.error (.malformed e), { s with names := names }, []⟩ := by
  rw [evalLine_eq_afterReading, parseLine, h]
  rfl

theorem result_run_let (hdepth : s.depth = 0) (opts : EvalOptions) (source : Bytes)
    (span o : Span) (args : List Expr) (names : Interner) :
    ({ s with names := names }.run
      ((Expr.list span (.operator o .letStar :: args)).eval opts source)).result =
        (evalLet opts source span args { s.machine with depth := s.machine.depth + 1 }).1 :=
  result_guarded opts span (evalLet opts source span args) hdepth

/-- What defines no name leaves the definitions as they are. -/
theorem Proper.valueOf?_run (hs : s.Proper) {names : Interner} (hn : s.names.Extends names)
    {e : Expr} (he : e.definedNames = []) (opts : EvalOptions) (source name : Bytes) :
    ({ s with names := names }.run (e.eval opts source)).session.valueOf? name =
      s.valueOf? name := by
  have hpos : 0 < s.machine.stack.height := by
    rw [machine, hs.height_eq]
    exact Nat.zero_lt_two
  have hstack : { (e.eval opts source s.machine).2.stack with capacity := s.stack.capacity } =
      s.stack := stack_eval_of_definedNames he hs.wellFormed hpos
  have hframes : ({ s with names := names }.run (e.eval opts source)).session.stack.frames =
      s.stack.frames := (congrArg Stack.frames hstack :)
  have hdefinitions : ({ s with names := names }.run (e.eval opts source)).session.definitions =
      s.definitions := by
    unfold definitions Session.userScope Stack.frameAt
    rw [hframes]
  rw [valueOf?, hdefinitions]
  exact hs.named.valueOf?_extends hn (hn.nodup hs.nodup) name

section Line

variable {names₁ names₂ : Interner} {bindings body : Bytes} {bs es : List Expr}
  (hbindings : Parser.parse .script 0 bindings (s.names.intern (utf8 "let*")).2 = (.ok bs, names₁))
include hbindings

theorem evalLine_letLine_eq (hbody : Parser.parse .script 0 body names₁ = (.ok es, names₂))
    (hagree : firstOperator? bindings bs = none ∨ bs.length % 2 = 1 ∨
      ∃ err, (s.parse (letLine .paren bindings body)).1 = .error err) :
    (s.evalLine (letLine .paren bindings body)).result =
        (s.evalLine (letLine .bracket bindings body)).result ∧
      (s.evalLine (letLine .paren bindings body)).session =
        (s.evalLine (letLine .bracket bindings body)).session := by
  rcases Parser.parse_letLine hbindings hbody s.options.limit with
    ⟨err, names₃, hlist, hvector⟩ | ⟨hlist, hvector⟩
  · rw [evalLine_of_parse_error hlist, evalLine_of_parse_error hvector]
    exact ⟨rfl, rfl⟩
  · have hagree : firstOperator? bindings bs = none ∨ bs.length % 2 = 1 := by
      rcases hagree with hnone | hodd | ⟨err, herr⟩
      · exact .inl hnone
      · exact .inr hodd
      · rw [Session.parse, parseLine_of_parse hlist] at herr
        cases herr
    obtain ⟨hend, hsession⟩ := (parallel_letTree (within_of_parse hbindings)
      (within_of_parse hbody) hagree s.options).run { s with names := names₂ }
    rw [evalLine_of_parse hlist, evalLine_of_parse hvector]
    exact ⟨hend.eq, hsession⟩

theorem Proper.evalLine_letLine_of_operator (hs : s.Proper) {e t : Expr} {place : Span}
    {op : Operator} (hbody : Parser.parse .script 0 body names₁ = (.ok [e], names₂))
    (hop : firstOperator? bindings bs = some (place, op)) (heven : bs.length % 2 = 0)
    (ht : (s.parse (letLine .paren bindings body)).1 = .ok t) :
    (s.evalLine (letLine .paren bindings body)).result =
        .error (.failed ⟨.expectedSymbol, place.shift 7⟩) ∧
      ∀ name, (s.evalLine (letLine .paren bindings body)).session.valueOf? name =
        s.valueOf? name := by
  have hextends := Parser.extends_parse .line s.options.limit (letLine .paren bindings body) s.names
  rcases Parser.parse_letLine hbindings hbody s.options.limit with
    ⟨err, names₃, hlist, -⟩ | ⟨hlist, -⟩
  · rw [Session.parse, parseLine, hlist] at ht
    cases ht
  · rw [hlist] at hextends
    rw [evalLine_of_parse hlist]
    exact ⟨result_letTree_of_operator hop heven s.options _ e hs.wellFormed.size_eq hs.depth_eq,
      hs.valueOf?_run hextends rfl s.options _⟩

end Line

end Session

end SpanLisp
