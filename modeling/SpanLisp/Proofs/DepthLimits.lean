import SpanLisp.Proofs.Frames
import SpanLisp.Proofs.Parsing

/-!
# Limits on depth

A depth limit only ever refuses.  `Transparent limit n x y` says that the computation `y`, which has
a looser limit, does what `x` does unless `x` is refused for its depth, and that `x` is refused only
if `n` more evaluations in progress pass the limit.  It is kept by the ways in which the evaluator
combines computations, so every expression has it for its height (`transparent_eval`).  Likewise a
token nests too deep, or the parser does the same with it under both limits (`step_looser`).
-/

namespace SpanLisp

/-- The second limit allows every depth that the first allows; 0 means no limit. -/
def Looser (limit limit' : Nat) : Prop :=
  ∀ depth, 0 < limit' ∧ limit' < depth → 0 < limit ∧ limit < depth

theorem looser_of_le {limit limit' : Nat} (hpos : 0 < limit) (h : limit' = 0 ∨ limit ≤ limit') :
    Looser limit limit' := by
  rintro depth ⟨hpos', hlt⟩
  omega

/-! ### The height of a tree -/

mutual

/-- The number of nodes on the longest way down from the root. -/
def Expr.height : Expr → Nat
  | .list _ elems | .vector _ elems => Expr.heightAll elems + 1
  | .bool .. | .integer .. | .keyword .. | .nil .. | .operator .. | .string .. | .symbol ..
  | .unlisted .. => 1

/-- The height of the highest of several trees. -/
def Expr.heightAll : List Expr → Nat
  | [] => 0
  | e :: es => max e.height (Expr.heightAll es)

end

theorem Expr.height_le_of_mem {e : Expr} : ∀ {es : List Expr}, e ∈ es → e.height ≤ heightAll es
  | x :: xs, h => by
    rcases List.mem_cons.1 h with rfl | h
    · exact Nat.le_max_left _ _
    · exact Nat.le_trans (height_le_of_mem h) (Nat.le_max_right _ _)

theorem Expr.heightAll_le_cons (e : Expr) (es : List Expr) : heightAll es ≤ heightAll (e :: es) :=
  Nat.le_max_right _ _

/-! ### Computations that end alike -/

/-- The computation was refused because of the depth limit. -/
def ExceedsDepth {α : Type} (r : Except Fault α) : Prop :=
  ∃ span, r = .error (.failed ⟨.depthExceeded, span⟩)

/-- A run with `n` more evaluations in progress at most was refused for its depth only if these pass
the limit, and unless it was, the other run is the same.  No evaluation is left in progress, and no
frame is left behind. -/
structure EndsAlike {α : Type} (limit n : Nat) (m : Machine) (r r' : Except Fault α × Machine) :
    Prop where
  depth_eq : r.2.depth = m.depth
  change : m.stack.TopChange r.2.stack
  deep : ExceedsDepth r.1 → limit < m.depth + n
  same : ¬ ExceedsDepth r.1 → r' = r

/-- From every machine the two computations end alike. -/
def Transparent {α : Type} (limit n : Nat) (x y : EvalM α) : Prop :=
  ∀ m, EndsAlike limit n m (x m) (y m)

variable {α β : Type} {limit n : Nat}

theorem Transparent.mono {x y : EvalM α} {n' : Nat} (h : Transparent limit n x y) (hn : n ≤ n') :
    Transparent limit n' x y :=
  fun m => ⟨(h m).depth_eq, (h m).change,
    fun hm => Nat.lt_of_lt_of_le ((h m).deep hm) (Nat.add_le_add_left hn _), (h m).same⟩

/-- What counts no evaluation is the same under every limit. -/
theorem transparent_self {x : EvalM α}
    (h : ∀ m, (x m).2.depth = m.depth ∧ m.stack.TopChange (x m).2.stack ∧ ¬ ExceedsDepth (x m).1) :
    Transparent limit n x x :=
  fun m => ⟨(h m).1, (h m).2.1, fun hm => absurd hm (h m).2.2, fun _ => rfl⟩

/-- Whether a failure is one for depth does not depend on what the value would have been. -/
theorem exceedsDepth_error_iff {f : Fault} :
    ExceedsDepth (.error f : Except Fault α) ↔ ExceedsDepth (.error f : Except Fault β) := by
  simp [ExceedsDepth]

theorem not_exceedsDepth_ok (a : α) : ¬ ExceedsDepth (.ok a : Except Fault α) :=
  fun ⟨_, h⟩ => nomatch h

theorem not_exceedsDepth_defect (d : Defect) :
    ¬ ExceedsDepth (.error (.defect d) : Except Fault α) :=
  fun ⟨_, h⟩ => nomatch h

theorem transparent_pure (a : α) : Transparent limit n (pure a) (pure a) :=
  transparent_self fun m => ⟨rfl, .refl m.stack, not_exceedsDepth_ok a⟩

theorem transparent_defect (d : Defect) :
    Transparent limit n (EvalM.throw (.defect d) : EvalM α) (EvalM.throw (.defect d)) :=
  transparent_self fun m => ⟨rfl, .refl m.stack, not_exceedsDepth_defect d⟩

theorem transparent_fail {kind : EvalError.Kind} (hkind : kind ≠ .depthExceeded) (span : Span) :
    Transparent limit n (EvalM.fail kind span : EvalM α) (EvalM.fail kind span) := by
  refine transparent_self fun m => ⟨rfl, .refl m.stack, ?_⟩
  rintro ⟨span', h⟩
  cases h
  exact hkind rfl

theorem transparent_ofExcept (r : Except Defect α) :
    Transparent limit n (EvalM.ofExcept r) (EvalM.ofExcept r) := by
  cases r with
  | ok a => exact transparent_pure a
  | error d => exact transparent_defect d

theorem transparent_report (opts : EvalOptions) (e : Event) :
    Transparent limit n (EvalM.report opts e) (EvalM.report opts e) := by
  refine transparent_self fun m => ?_
  unfold EvalM.report
  split <;> exact ⟨rfl, .refl m.stack, not_exceedsDepth_ok ()⟩

theorem transparent_topFrame : Transparent limit n EvalM.topFrame EvalM.topFrame :=
  transparent_self fun m => ⟨rfl, .refl m.stack, not_exceedsDepth_ok m.stack.top⟩

theorem transparent_lookup (sym : Symbol) :
    Transparent limit n (EvalM.lookup sym) (EvalM.lookup sym) := by
  refine transparent_self fun m => ?_
  unfold EvalM.lookup
  cases m.stack.lookup sym with
  | ok r => exact ⟨rfl, .refl m.stack, not_exceedsDepth_ok _⟩
  | error d => exact ⟨rfl, .refl m.stack, not_exceedsDepth_defect d⟩

theorem transparent_bindSymbol (sym : Symbol) (v : Value) :
    Transparent limit n (EvalM.bindSymbol sym v) (EvalM.bindSymbol sym v) := by
  refine transparent_self fun m => ⟨rfl, Stack.topChange_bind m.stack sym v, ?_⟩
  unfold EvalM.bindSymbol EvalM.onStack
  cases (Stack.bind sym v m.stack).1 with
  | ok _ => exact not_exceedsDepth_ok ()
  | error d => exact not_exceedsDepth_defect d

/-- A refusal ends a sequence of computations, so it is seen at its end. -/
theorem Transparent.bind {x y : EvalM α} {f g : α → EvalM β} (hx : Transparent limit n x y)
    (hf : ∀ a, Transparent limit n (f a) (g a)) : Transparent limit n (x >>= f) (y >>= g) := by
  intro m
  have h := hx m
  rcases hxm : x m with ⟨r, m'⟩
  rw [hxm] at h
  cases r with
  | error e =>
    rw [EvalM.bind_of_error hxm]
    exact ⟨h.depth_eq, h.change, fun hm => h.deep (exceedsDepth_error_iff.1 hm),
      fun hm => EvalM.bind_of_error (h.same fun he => hm (exceedsDepth_error_iff.1 he))⟩
  | ok a =>
    obtain ⟨hdepth, hchange, hdeep, hsame⟩ := hf a m'
    rw [EvalM.bind_of_ok hxm, EvalM.bind_of_ok (h.same (not_exceedsDepth_ok a))]
    rw [h.depth_eq] at hdepth hdeep
    exact ⟨hdepth, h.change.trans hchange, hdeep, hsame⟩

/-- Counting an evaluation takes one of those that there is room for. -/
theorem Transparent.guarded {opts : EvalOptions} {limit' : Nat} (hloose : Looser opts.limit limit')
    {x y : EvalM α} (h : Transparent opts.limit n x y) (span : Span) :
    Transparent opts.limit (n + 1) (EvalM.guarded opts span x)
      (EvalM.guarded { opts with limit := limit' } span y) := by
  intro m
  unfold EvalM.guarded
  by_cases hover : 0 < opts.limit ∧ opts.limit < m.depth + 1
  · simp only [if_pos hover]
    exact ⟨rfl, .refl m.stack, fun _ => by omega, fun hm => absurd ⟨span, rfl⟩ hm⟩
  · have hover' : ¬ (0 < limit' ∧ limit' < m.depth + 1) := fun h' => hover (hloose _ h')
    obtain ⟨hdepth, hchange, hdeep, hsame⟩ := h { m with depth := m.depth + 1 }
    simp only [if_neg hover, if_neg hover']
    refine ⟨?_, hchange, fun hm => ?_, fun hm => ?_⟩
    · simp only [hdepth, Nat.add_sub_cancel]
    · have := hdeep hm
      simp only at this
      omega
    · simp only [hsame hm]

theorem Transparent.inFrame {x y : EvalM α} (h : Transparent limit n x y) (name : Bytes) :
    Transparent limit n (EvalM.inFrame name x) (EvalM.inFrame name y) := by
  intro m
  by_cases hsize : m.stack.frames.size = m.stack.height
  · obtain ⟨hdepth, hchange, hdeep, hsame⟩ := h { m with stack := m.stack.withNamed name }
    rw [EvalM.inFrame_of_change hsize hchange]
    refine ⟨hdepth, (Stack.popScope_withNamed hsize hchange).2.2, hdeep, fun hm => ?_⟩
    rw [EvalM.inFrame_of_change hsize (by rw [hsame hm]; exact hchange), hsame hm]
  · rw [EvalM.inFrame_of_size_ne hsize, EvalM.inFrame_of_size_ne hsize]
    exact ⟨rfl, .refl m.stack, fun hm => absurd hm (not_exceedsDepth_defect _), fun _ => rfl⟩

/-! ### Evaluation -/

theorem transparent_define (opts : EvalOptions) (source : Bytes) (span : Span) (sym : Symbol)
    (v : Value) :
    Transparent limit n (define opts source span sym v) (define opts source span sym v) := by
  unfold define
  refine (transparent_bindSymbol sym v).bind fun _ => ?_
  cases opts.trace with
  | false => exact transparent_pure v
  | true =>
    exact (transparent_ofExcept _).bind fun _ => transparent_topFrame.bind fun _ =>
      (transparent_report opts _).bind fun _ => transparent_pure v

theorem transparent_call (opts : EvalOptions) (span : Span) (index : Int) (args : List Value) :
    Transparent limit n (call opts span index args) (call opts span index args) := by
  unfold call
  cases Builtin.get? index with
  | none => exact transparent_defect _
  | some f =>
    simp only
    cases f.apply args with
    | ok v => exact transparent_pure v
    | error why => exact (transparent_report opts _).bind fun _ => transparent_fail (by decide) span

variable {opts : EvalOptions} {source : Bytes} {limit' : Nat}

mutual

/-- An expression needs no more evaluations in progress than its tree is high. -/
theorem transparent_eval (hloose : Looser opts.limit limit') :
    ∀ e : Expr, Transparent opts.limit e.height (e.eval opts source)
      (e.eval { opts with limit := limit' } source)
  | .bool span b => (transparent_pure (Value.bool b)).guarded hloose span
  | .integer span k => (transparent_pure (Value.integer k)).guarded hloose span
  | .nil span => (transparent_pure Value.nil).guarded hloose span
  | .keyword span sym => (transparent_pure (Value.keyword sym)).guarded hloose span
  | .string span => ((transparent_ofExcept _).bind fun text =>
      transparent_pure (Value.string text)).guarded hloose span
  | .symbol span sym => by
    refine Transparent.guarded hloose ((transparent_lookup sym).bind fun found => ?_) span
    cases found with
    | none => exact transparent_fail (by decide) span
    | some v => exact transparent_pure v
  | .vector span elems => ((transparent_evalAll hloose elems).bind fun vs =>
      transparent_pure (Value.vector vs)).guarded hloose span
  | .list span [] => (transparent_fail (by decide) span).guarded hloose span
  | .list span (.operator s .define :: args) =>
    ((transparent_evalDefine hloose span args).mono
      (Expr.heightAll_le_cons _ _)).guarded hloose span
  | .list span (.operator s .cond :: args) =>
    ((transparent_evalCond hloose span args).mono (Expr.heightAll_le_cons _ _)).guarded hloose span
  | .list span (.operator s .letStar :: args) =>
    ((transparent_evalLet hloose span args).mono (Expr.heightAll_le_cons _ _)).guarded hloose span
  | .list span (.operator s (.unlisted code) :: _) => (transparent_defect _).guarded hloose span
  | .list span (.symbol headSpan sym :: args) => by
    have hargs := (transparent_evalAll hloose args).mono
      (Expr.heightAll_le_cons (.symbol headSpan sym) args)
    refine Transparent.guarded hloose ((transparent_lookup sym).bind fun found => ?_) span
    cases found with
    | none => exact transparent_fail (by decide) headSpan
    | some v =>
      cases v with
      | function index => exact hargs.bind fun vs => transparent_call opts span index vs
      | nil | bool | integer | keyword | string | vector | unlisted =>
        exact transparent_fail (by decide) headSpan
  | .list span (.bool _ _ :: _) | .list span (.integer _ _ :: _)
  | .list span (.keyword _ _ :: _) | .list span (.list _ _ :: _)
  | .list span (.nil _ :: _) | .list span (.string _ :: _)
  | .list span (.vector _ _ :: _) | .list span (.unlisted _ _ :: _) =>
    (transparent_fail (by decide) _).guarded hloose span
  | .operator span op => (transparent_defect _).guarded hloose span
  | .unlisted span code => (transparent_defect _).guarded hloose span

theorem transparent_evalAll (hloose : Looser opts.limit limit') :
    ∀ es : List Expr, Transparent opts.limit (Expr.heightAll es) (evalAll opts source es)
      (evalAll { opts with limit := limit' } source es)
  | [] => transparent_pure []
  | e :: es =>
    ((transparent_eval hloose e).mono (Expr.height_le_of_mem List.mem_cons_self)).bind fun v =>
      ((transparent_evalAll hloose es).mono (Expr.heightAll_le_cons e es)).bind fun vs =>
        transparent_pure (v :: vs)

theorem transparent_evalDefine (hloose : Looser opts.limit limit') (span : Span) :
    ∀ args : List Expr, Transparent opts.limit (Expr.heightAll args)
      (evalDefine opts source span args) (evalDefine { opts with limit := limit' } source span args)
  | [] => transparent_fail (by decide) _
  | [x] | x :: _ :: _ :: _ => by cases x <;> exact transparent_fail (by decide) _
  | [.symbol s sym, e] =>
    ((transparent_eval hloose e).mono (Expr.height_le_of_mem (by simp))).bind fun v =>
      transparent_define opts source s sym v
  | [.bool _ _, _] | [.integer _ _, _] | [.keyword _ _, _] | [.list _ _, _]
  | [.nil _, _] | [.operator _ _, _] | [.string _, _] | [.vector _ _, _]
  | [.unlisted _ _, _] => transparent_fail (by decide) _

theorem transparent_evalCond (hloose : Looser opts.limit limit') (span : Span) :
    ∀ args : List Expr, Transparent opts.limit (Expr.heightAll args)
      (evalCond opts source span args) (evalCond { opts with limit := limit' } source span args)
  | [] | [_] | [_, _] | _ :: _ :: _ :: _ :: _ => transparent_fail (by decide) _
  | [test, yes, no] => by
    refine ((transparent_eval hloose test).mono (Expr.height_le_of_mem (by simp))).bind fun v => ?_
    cases v.isTruthy with
    | true => exact (transparent_eval hloose yes).mono (Expr.height_le_of_mem (by simp))
    | false => exact (transparent_eval hloose no).mono (Expr.height_le_of_mem (by simp))

theorem transparent_evalLet (hloose : Looser opts.limit limit') (span : Span) :
    ∀ args : List Expr, Transparent opts.limit (Expr.heightAll args)
      (evalLet opts source span args) (evalLet { opts with limit := limit' } source span args)
  | [] => transparent_fail (by decide) _
  | [x] | x :: _ :: _ :: _ => by cases x <;> exact transparent_fail (by decide) _
  | [.list s elems, body] | [.vector s elems, body] => by
    rw [evalLet, evalLet]
    by_cases hodd : elems.length % 2 ≠ 0
    · rw [if_pos hodd, if_pos hodd]
      exact transparent_fail (by decide) s
    rw [if_neg hodd, if_neg hodd]
    refine (transparent_topFrame.bind fun _ => (transparent_report opts _).bind fun _ =>
      Transparent.bind ?_ fun _ => ?_).inFrame _
    · -- The binding list itself is not evaluated: its elements have one evaluation to spare.
      exact (transparent_evalBindings hloose elems).mono
        (Nat.le_trans (Nat.le_succ _) (Nat.le_max_left _ _))
    · exact (transparent_eval hloose body).mono (Expr.height_le_of_mem (by simp))
  | [.bool _ _, _] | [.integer _ _, _] | [.keyword _ _, _] | [.symbol _ _, _]
  | [.nil _, _] | [.operator _ _, _] | [.string _, _] | [.unlisted _ _, _] =>
    transparent_fail (by decide) _

theorem transparent_evalBindings (hloose : Looser opts.limit limit') :
    ∀ es : List Expr, Transparent opts.limit (Expr.heightAll es) (evalBindings opts source es)
      (evalBindings { opts with limit := limit' } source es)
  | [] => transparent_pure ()
  | [x] => by cases x <;> exact transparent_pure ()
  | .symbol s sym :: e :: rest =>
    ((transparent_eval hloose e).mono (Expr.height_le_of_mem (by simp))).bind fun v =>
      (transparent_bindSymbol sym v).bind fun _ =>
        (transparent_evalBindings hloose rest).mono
          (Nat.le_trans (Expr.heightAll_le_cons e rest) (Expr.heightAll_le_cons _ _))
  | .bool _ _ :: _ :: _ | .integer _ _ :: _ :: _ | .keyword _ _ :: _ :: _
  | .list _ _ :: _ :: _ | .nil _ :: _ :: _ | .operator _ _ :: _ :: _
  | .string _ :: _ :: _ | .vector _ _ :: _ :: _ | .unlisted _ _ :: _ :: _ =>
    transparent_fail (by decide) _

end

/-- The bindings and the body of a `let*` run in a new frame, which does not change what comes of
them. -/
theorem result_evalLet (opts : EvalOptions) (source : Bytes) (span s : Span) {elems : List Expr}
    (heven : elems.length % 2 = 0) (body : Expr) {m : Machine}
    (hsize : m.stack.frames.size = m.stack.height) :
    (evalLet opts source span [.vector s elems, body] m).1 = ((do
      EvalM.report opts (.frameEntered (← EvalM.topFrame))
      evalBindings opts source elems
      body.eval opts source : EvalM Value)
        { m with stack := m.stack.withNamed (utf8 "let*") }).1 := by
  have hloose : Looser opts.limit opts.limit := fun _ h => h
  have hinner := transparent_topFrame.bind fun frame =>
    (transparent_report opts (.frameEntered frame)).bind fun _ =>
      ((@transparent_evalBindings opts source _ hloose elems).mono (Nat.le_max_left _ _)).bind
        fun _ => (@transparent_eval opts source _ hloose body).mono (Nat.le_max_right _ _)
  rw [evalLet, if_neg (by omega), EvalM.inFrame_of_change hsize
    (hinner { m with stack := m.stack.withNamed (utf8 "let*") }).change]

theorem result_guarded {α : Type} (opts : EvalOptions) (span : Span) (x : EvalM α) {m : Machine}
    (hdepth : m.depth = 0) :
    (EvalM.guarded opts span x m).1 = (x { m with depth := m.depth + 1 }).1 := by
  unfold EvalM.guarded
  simp only
  rw [if_neg (by omega)]

/-! ### Parsing -/

namespace Parser

/-- A token nests too deep, or a looser limit makes no difference to it. -/
theorem step_looser {limit limit' : Nat} (hloose : Looser limit limit') (mode : Mode) (st : State)
    (t : Token) :
    step mode limit st t = .error ⟨.nestingTooDeep, t.span⟩ ∨
      step mode limit' st t = step mode limit st t := by
  by_cases hblank : t.kind = .blank
  · exact .inr ((step_blank hblank).trans (step_blank hblank).symm)
  by_cases hover : st.lineIsOver mode = true
  · exact .inr ((step_over hblank hover).trans (step_over hblank hover).symm)
  unfold step
  rw [if_neg hblank, if_neg hblank, if_neg hover, if_neg hover]
  cases t.kind with
  | blank | integer | string | symbol | closing => exact .inr rfl
  | opening d =>
    simp only
    by_cases hd : d = .brace
    · rw [if_pos hd, if_pos hd]
      exact .inr rfl
    rw [if_neg hd, if_neg hd]
    by_cases hdeep : 0 < limit ∧ limit < st.pending.length + 1
    · exact .inl (if_pos hdeep)
    · rw [if_neg hdeep, if_neg fun h => hdeep (hloose _ h)]
      exact .inr rfl

theorem run_looser {limit limit' : Nat} (hloose : Looser limit limit') (mode : Mode) (size : Nat)
    (failure : Option SyntaxError) :
    ∀ (ts : List Token) (st : State),
      (∃ span, (run mode limit size failure ts st).1 = .error ⟨.nestingTooDeep, span⟩) ∨
        run mode limit' size failure ts st = run mode limit size failure ts st
  | [], _ => .inr rfl
  | t :: ts, st => by
    rcases step_looser hloose mode st t with hstep | hstep
    · exact .inl ⟨t.span, by rw [run, hstep]⟩
    rw [run, run, hstep]
    cases step mode limit st t with
    | error e => exact .inr rfl
    | ok st' => exact run_looser hloose mode size failure ts st'

theorem parse_looser {limit limit' : Nat} (hloose : Looser limit limit') (mode : Mode)
    (text : Bytes) (names : Interner) :
    (∃ span, (parse mode limit text names).1 = .error ⟨.nestingTooDeep, span⟩) ∨
      parse mode limit' text names = parse mode limit text names :=
  run_looser hloose mode text.length (tokens text).2 (tokens text).1 { names := names }

end Parser

theorem parseLine_looser {limit limit' : Nat} (hloose : Looser limit limit') (text : Bytes)
    (names : Interner) :
    (∃ span, (parseLine limit text names).1 = .error ⟨.nestingTooDeep, span⟩) ∨
      parseLine limit' text names = parseLine limit text names := by
  unfold parseLine
  rcases Parser.parse_looser hloose .line text names with ⟨span, h⟩ | h
  · exact .inl ⟨span, by simp only [h]; rfl⟩
  · exact .inr (by rw [h])

/-! ### Both limits -/

/-- A positive limit and a larger one, or none, differ only in what the positive one refuses for its
depth.  Evaluating an expression on any machine is not refused if the limit leaves room for the
height of its tree; unless it is refused, it ends with the same value or error on the same machine,
stack included.  Reading a text ends with an opening delimiter nested too deep, or with the same
trees or the same error and the same names. -/
theorem limits_only_refuse {limit limit' : Nat} (hpos : 0 < limit)
    (hlarger : limit' = 0 ∨ limit ≤ limit') :
    (∀ (trace : Bool) (source : Bytes) (e : Expr) (m : Machine),
      (¬ ExceedsDepth (e.eval ⟨limit, trace⟩ source m).1 →
        e.eval ⟨limit', trace⟩ source m = e.eval ⟨limit, trace⟩ source m) ∧
      (m.depth + e.height ≤ limit → ¬ ExceedsDepth (e.eval ⟨limit, trace⟩ source m).1)) ∧
    ∀ (text : Bytes) (names : Interner),
      ((∃ span, (parseLine limit text names).1 = .error ⟨.nestingTooDeep, span⟩) ∨
        parseLine limit' text names = parseLine limit text names) ∧
      ((∃ span, (parseAll limit text names).1 = .error ⟨.nestingTooDeep, span⟩) ∨
        parseAll limit' text names = parseAll limit text names) := by
  have hloose := looser_of_le hpos hlarger
  refine ⟨fun trace source e m => ?_, fun text names => ?_⟩
  · obtain ⟨-, -, hdeep, hsame⟩ := @transparent_eval ⟨limit, trace⟩ source limit' hloose e m
    exact ⟨hsame, fun hroom hm => Nat.not_lt.2 hroom (hdeep hm)⟩
  · exact ⟨parseLine_looser hloose text names, Parser.parse_looser hloose .script text names⟩

/-- A `let*` higher than the limit that is evaluated within it, since its binding list is not
evaluated itself; and a text nested to the limit exactly. -/
theorem limits_only_refuse_let :
    let source := utf8 "(let* [x 1] x)"
    let e := Expr.list ⟨0, 14⟩ [.operator ⟨1, 5⟩ .letStar,
      .vector ⟨6, 11⟩ [.symbol ⟨7, 8⟩ 1, .integer ⟨9, 10⟩ 1], .symbol ⟨12, 13⟩ 1]
    let m : Machine := { stack := (Stack.ofName []).withNamed (utf8 "user") }
    e.height = 3 ∧ ¬ ExceedsDepth (e.eval ⟨2, true⟩ source m).1 ∧
      e.eval ⟨0, true⟩ source m = e.eval ⟨2, true⟩ source m ∧
      (parseLine 2 source {}).1 = .ok e ∧ parseLine 0 source {} = parseLine 2 source {} := by
  intro source e m
  obtain ⟨heval, hparse⟩ := @limits_only_refuse 2 0 (by decide) (.inl rfl)
  have hvalue : (e.eval ⟨2, true⟩ source m).1 = .ok (.integer 1) := by
    show (EvalM.guarded ⟨2, true⟩ ⟨0, 14⟩ (evalLet ⟨2, true⟩ source ⟨0, 14⟩ _) m).1 = _
    rw [result_guarded _ _ _ rfl, result_evalLet _ _ _ _ rfl _ rfl]
    rfl
  have hexceeds : ¬ ExceedsDepth (e.eval ⟨2, true⟩ source m).1 := by
    rw [hvalue]
    exact not_exceedsDepth_ok _
  have hline : (parseLine 2 source {}).1 = .ok e := by
    unfold parseLine Parser.parse
    rw [ByteLexer.tokens_eq_scan]
    rfl
  refine ⟨rfl, hexceeds, (heval true source e m).1 hexceeds, hline, ?_⟩
  rcases (hparse source {}).1 with ⟨span, h⟩ | h
  · rw [hline] at h
    cases h
  · exact h

end SpanLisp
