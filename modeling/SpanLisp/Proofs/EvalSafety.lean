import SpanLisp.Eval
import SpanLisp.Proofs.Frames
import SpanLisp.Proofs.KnownValues
import SpanLisp.Proofs.Parsing

/-!
# Evaluation meets no defect

`Safe names S Q x` says of a computation `x` on a sound machine, one whose bindings are known to
`names`: it ends with a value that satisfies `Q` or with an evaluation error at a span that
satisfies `S`, never with a defect, and it leaves the machine sound, with the same frames but for
the bindings of the top one.  The trees of a text are fit for evaluation (`Ready`), so evaluating
them is safe (`safe_eval`).
-/

namespace SpanLisp

/-- A binding whose symbol and value are known. -/
def KnownBinding (names : Interner) (sym : Symbol) (v : Value) : Prop :=
  sym < names.size ∧ v.Known names

theorem KnownBinding.mono {names names' : Interner} (hn : names.Extends names') {sym : Symbol}
    {v : Value} (h : KnownBinding names sym v) : KnownBinding names' sym v :=
  ⟨Nat.lt_of_lt_of_le h.1 hn.size_le, h.2.mono hn⟩

/-- The machine has a well-formed stack with a frame, and all its bindings are known. -/
structure Machine.Sound (names : Interner) (m : Machine) : Prop where
  /-- The stack is well-formed. -/
  wellFormed : m.stack.WellFormed
  /-- There is a frame. -/
  pos : 0 < m.stack.height
  /-- All bindings are known. -/
  holds : m.stack.Holds (KnownBinding names)

/-- What a computation keeps: the bindings stay known, only those of the top frame change, and no
evaluation is left in progress. -/
structure Machine.Kept (names : Interner) (m m' : Machine) : Prop where
  /-- All bindings are known. -/
  holds : m'.stack.Holds (KnownBinding names)
  /-- At most the bindings of the top frame have changed. -/
  change : m.stack.TopChange m'.stack
  /-- No evaluation is left in progress. -/
  depth_eq : m'.depth = m.depth

theorem Machine.Sound.kept {names : Interner} {m : Machine} (h : m.Sound names) :
    m.Kept names m :=
  ⟨h.holds, .refl _, rfl⟩

theorem Machine.Kept.sound {names : Interner} {m m' : Machine} (h : m.Kept names m')
    (hm : m.Sound names) : m'.Sound names :=
  ⟨h.change.wellFormed hm.wellFormed, by rw [h.change.height_eq]; exact hm.pos, h.holds⟩

theorem Machine.Kept.trans {names : Interner} {m m' m'' : Machine} (h₁ : m.Kept names m')
    (h₂ : m'.Kept names m'') : m.Kept names m'' :=
  ⟨h₂.holds, h₁.change.trans h₂.change, h₂.depth_eq.trans h₁.depth_eq⟩

/-- The result is a value with the property `Q` or an evaluation error at a span with the property
`S`. -/
def Fine {α : Type} (S : Span → Prop) (Q : α → Prop) : Except Fault α → Prop
  | .ok a => Q a
  | .error f => ∃ e, f = .failed e ∧ S e.span

/-- On sound machines the computation ends well and keeps the machine sound. -/
def Safe {α : Type} (names : Interner) (S : Span → Prop) (Q : α → Prop) (x : EvalM α) : Prop :=
  ∀ m : Machine, m.Sound names → Fine S Q (x m).1 ∧ m.Kept names (x m).2

/-! ### Safe computations -/

section Rules

variable {α β : Type} {names : Interner} {S : Span → Prop} {Q : α → Prop}

theorem safe_pure {a : α} (h : Q a) : Safe names S Q (pure a) :=
  fun _ hm => ⟨h, hm.kept⟩

theorem safe_fail {span : Span} (h : S span) (kind : EvalError.Kind) :
    Safe names S Q (EvalM.fail kind span) :=
  fun _ hm => ⟨⟨⟨kind, span⟩, rfl, h⟩, hm.kept⟩

theorem Safe.bind {x : EvalM α} {R : β → Prop} {f : α → EvalM β} (hx : Safe names S Q x)
    (hf : ∀ a, Q a → Safe names S R (f a)) : Safe names S R (x >>= f) := by
  intro m hm
  obtain ⟨hfine, hkept⟩ := hx m hm
  rcases hxm : x m with ⟨r, m'⟩
  rw [hxm] at hfine hkept
  cases r with
  | error e =>
    rw [EvalM.bind_of_error hxm]
    exact ⟨hfine, hkept⟩
  | ok a =>
    rw [EvalM.bind_of_ok hxm]
    obtain ⟨hfine', hkept'⟩ := hf a hfine m' (hkept.sound hm)
    exact ⟨hfine', hkept.trans hkept'⟩

theorem safe_report (opts : EvalOptions) (e : Event) :
    Safe names S (fun _ => True) (EvalM.report opts e) := by
  intro m hm
  unfold EvalM.report
  split <;> exact ⟨trivial, hm.holds, .refl _, rfl⟩

theorem safe_reportTop (opts : EvalOptions) (e : Int → Event) :
    Safe names S (fun _ => True)
      (EvalM.topFrame >>= fun frame => EvalM.report opts (e frame)) :=
  fun m hm => safe_report opts (e m.stack.top) m hm

theorem safe_lookup (sym : Symbol) :
    Safe names S (fun r => ∀ v, r = some v → v.Known names) (EvalM.lookup sym) := by
  intro m hm
  obtain ⟨r, hr, -⟩ := Stack.lookup_of_wellFormed hm.wellFormed sym
  unfold EvalM.lookup
  rw [hr]
  refine ⟨?_, hm.kept⟩
  intro v hv
  obtain ⟨⟨v', scope⟩, rfl, rfl⟩ := Option.map_eq_some_iff.1 hv
  exact (hm.holds.lookupFrom hr).2

theorem safe_bindSymbol {sym : Symbol} {v : Value} (hsym : sym < names.size)
    (hv : v.Known names) : Safe names S (fun _ => True) (EvalM.bindSymbol sym v) := by
  intro m hm
  obtain ⟨s', hbind, hchange, -⟩ := Stack.visible_bind hm.wellFormed hm.pos sym v
  have hholds := hm.holds.bind (show KnownBinding names sym v from ⟨hsym, hv⟩)
  unfold EvalM.bindSymbol
  rw [EvalM.onStack_eq hbind]
  rw [hbind] at hholds
  exact ⟨trivial, hholds, hchange, rfl⟩

theorem Safe.guarded {x : EvalM α} (h : Safe names S Q x) {span : Span} (hspan : S span)
    (opts : EvalOptions) : Safe names S Q (EvalM.guarded opts span x) := by
  intro m hm
  have hm' : Machine.Sound names { m with depth := m.depth + 1 } :=
    ⟨hm.wellFormed, hm.pos, hm.holds⟩
  obtain ⟨hfine, hkept⟩ := h _ hm'
  unfold EvalM.guarded
  simp only
  split
  · exact ⟨⟨_, rfl, hspan⟩, hm.holds, .refl _, Nat.add_sub_cancel _ 1⟩
  · refine ⟨hfine, hkept.holds, hkept.change, ?_⟩
    simp only [hkept.depth_eq, Nat.add_sub_cancel]

theorem Safe.inFrame {x : EvalM α} (h : Safe names S Q x) (name : Bytes) :
    Safe names S Q (EvalM.inFrame name x) := by
  intro m hm
  have hsize := hm.wellFormed.size_eq
  have hm' : Machine.Sound names { m with stack := m.stack.withNamed name } :=
    ⟨Stack.wellFormed_withNamed hm.wellFormed name, Nat.succ_pos _,
      hm.holds.withNamed hsize name⟩
  obtain ⟨hfine, hkept⟩ := h _ hm'
  obtain ⟨-, hframes, hchange⟩ := Stack.popScope_withNamed hsize hkept.change
  rw [EvalM.inFrame_of_change hsize hkept.change]
  exact ⟨hfine, hm.holds.of_frames_eq hframes, hchange, hkept.depth_eq⟩

theorem safe_define {opts : EvalOptions} {source : Bytes} {span : Span} {sym : Symbol} {v : Value}
    (hspan : span.Within source.length) (hsym : sym < names.size) (hv : v.Known names) :
    Safe names S (Value.Known names) (define opts source span sym v) := by
  unfold define
  refine (safe_bindSymbol hsym hv).bind fun _ _ => ?_
  cases opts.trace with
  | false => exact safe_pure hv
  | true =>
    rw [slice_of_within hspan]
    exact (safe_reportTop opts _).bind fun _ _ => safe_pure hv

/-- Bindings and a body in a frame of their own, unless a name stands there without a value. -/
theorem safe_letFrame (opts : EvalOptions) {span : Span} (hspan : S span) {odd : Prop}
    [Decidable odd] {x : EvalM Unit} {y : EvalM α} (hx : Safe names S (fun _ => True) x)
    (hy : Safe names S Q y) :
    Safe names S Q (if odd then EvalM.fail .unsupportedOperation span
      else EvalM.inFrame (utf8 "let*") do
        EvalM.report opts (.frameEntered (← EvalM.topFrame))
        x
        y) := by
  split
  · exact safe_fail hspan _
  · exact ((safe_reportTop opts _).bind fun _ _ => hx.bind fun _ _ => hy).inFrame _

theorem safe_call (opts : EvalOptions) {span : Span} (hspan : S span) {index : Int}
    (hindex : (Value.function index).Known names) (args : List Value) :
    Safe names S (Value.Known names) (call opts span index args) := by
  obtain ⟨f, hf⟩ := hindex
  unfold call
  rw [hf]
  simp only
  cases happly : f.apply args with
  | ok v => exact safe_pure (Builtin.known_of_apply hf happly names)
  | error why => exact (safe_report opts _).bind fun _ _ => safe_fail hspan _

end Rules

/-! ### Trees fit for evaluation -/

/-- The trees are faithful to the text, their tokens fit it, and the spans of their nodes have the
property `S`. -/
structure Ready (source : Bytes) (names : Interner) (S : Span → Prop) (head : Bool)
    (es : List Expr) : Prop where
  /-- Every leaf is what its bytes dictate, and operators stand at the heads of lists. -/
  faithful : Expr.FaithfulAll source names head es
  /-- The tokens fit the text. -/
  fits : ∀ t ∈ Expr.tokensAll source es, t.Fits source
  /-- The spans have the property. -/
  spans : ∀ n ∈ Expr.nodesAll es, S n.span

namespace Ready

variable {source : Bytes} {names : Interner} {S : Span → Prop} {head : Bool} {e : Expr}
  {es : List Expr} {s : Span}

theorem first (h : Ready source names S head (e :: es)) : Ready source names S head [e] where
  faithful := ⟨h.faithful.1, trivial⟩
  fits t ht := by
    rw [Expr.tokensAll, Expr.tokensAll, List.append_nil] at ht
    exact h.fits t (List.mem_append_left _ ht)
  spans n hn := by
    rw [Expr.nodesAll, Expr.nodesAll, List.append_nil] at hn
    exact h.spans n (List.mem_append_left _ hn)

theorem rest (h : Ready source names S head (e :: es)) : Ready source names S false es where
  faithful := h.faithful.2
  fits t ht := h.fits t (List.mem_append_right _ ht)
  spans n hn := h.spans n (List.mem_append_right _ hn)

theorem withSpans (h : Ready source names S head es) {S' : Span → Prop}
    (hS : ∀ n ∈ Expr.nodesAll es, S' n.span) : Ready source names S' head es :=
  ⟨h.faithful, h.fits, hS⟩

theorem span (h : Ready source names S head (e :: es)) : S e.span :=
  h.spans e (List.mem_append_left _ (Expr.mem_nodes_self e))

theorem elems (h : Ready source names S head (.list s es :: [])) :
    Ready source names S true es where
  faithful := h.faithful.1
  fits t ht := h.first.fits t (List.mem_append_left _ ((Expr.sublist_between _ _ _).subset ht))
  spans n hn := h.spans n (List.mem_append_left _ (List.mem_cons_of_mem _ hn))

theorem vectorElems (h : Ready source names S head (.vector s es :: [])) :
    Ready source names S false es where
  faithful := h.faithful.1
  fits t ht := h.first.fits t (List.mem_append_left _ ((Expr.sublist_between _ _ _).subset ht))
  spans n hn := h.spans n (List.mem_append_left _ (List.mem_cons_of_mem _ hn))

theorem symbol_lt {sym : Symbol} (h : Ready source names S head (.symbol s sym :: es)) :
    sym < names.size :=
  Interner.lt_size_of_find? h.faithful.1.2.2.2

theorem keyword_lt {sym : Symbol} (h : Ready source names S head (.keyword s sym :: es)) :
    sym < names.size := by
  obtain ⟨name, -, -, hfind⟩ := h.faithful.1
  exact Interner.lt_size_of_find? hfind

theorem symbol_within {sym : Symbol} (h : Ready source names S head (.symbol s sym :: es)) :
    s.Within source.length :=
  (h.fits (Expr.leafToken source .symbol s) List.mem_cons_self).within

/-- The contents of a string literal lie between its quotes. -/
theorem stringText_ok (h : Ready source names S head (.string s :: es)) :
    ∃ text, Expr.stringText source s = .ok text := by
  have hfits := h.fits (Expr.leafToken source .string s) List.mem_cons_self
  have hslice : slice source s = .ok (s.of source) := slice_of_within hfits.within
  obtain ⟨body, hbody, -⟩ :
      ∃ body, s.of source = ByteLexer.quote :: body ++ [ByteLexer.quote] ∧ _ := hfits.lexeme
  have hlen : ¬ (s.of source).length < 2 := by
    rw [hbody]
    simp
  unfold Expr.stringText
  rw [hslice]
  simp only [if_neg hlen]
  exact ⟨_, rfl⟩

theorem not_operator {op : Operator} (h : Ready source names S false (.operator s op :: es)) :
    False :=
  absurd h.faithful.1.1 Bool.false_ne_true

theorem operator_listed {code : Int}
    (h : Ready source names S head (.operator s (.unlisted code) :: es)) : False := by
  have hname := h.faithful.1.2
  unfold Operator.ofName? at hname
  repeat' split at hname
  all_goals cases hname

end Ready

/-! ### Evaluation -/

section Evaluation

variable {source : Bytes} {names : Interner} {S : Span → Prop}

mutual

theorem safe_eval (opts : EvalOptions) :
    ∀ {e : Expr}, Ready source names S false [e] →
      Safe names S (Value.Known names) (e.eval opts source)
  | .bool _ b, h => (safe_pure (a := Value.bool b) trivial).guarded h.span opts
  | .integer _ n, h => (safe_pure (a := Value.integer n) trivial).guarded h.span opts
  | .nil _, h => (safe_pure (a := Value.nil) trivial).guarded h.span opts
  | .keyword _ sym, h => (safe_pure (a := Value.keyword sym) h.keyword_lt).guarded h.span opts
  | .string s, h => by
    obtain ⟨text, htext⟩ := h.stringText_ok
    rw [Expr.eval, htext]
    exact (safe_pure (a := Value.string text) trivial).guarded h.span opts
  | .symbol s sym, h => by
    refine ((safe_lookup sym).bind fun found hfound => ?_).guarded h.span opts
    cases found with
    | none => exact safe_fail h.span _
    | some v => exact safe_pure (hfound v rfl)
  | .vector s elems, h =>
    ((safe_evalAll opts h.vectorElems).bind fun vs hvs =>
      safe_pure (a := Value.vector vs) hvs).guarded h.span opts
  | .list s [], h => (safe_fail h.span _).guarded h.span opts
  | .list s (.operator _ .define :: args), h =>
    (safe_evalDefine opts h.span h.elems.rest).guarded h.span opts
  | .list s (.operator _ .cond :: args), h =>
    (safe_evalCond opts h.span h.elems.rest).guarded h.span opts
  | .list s (.operator _ .letStar :: args), h =>
    (safe_evalLet opts h.span h.elems.rest).guarded h.span opts
  | .list s (.operator _ (.unlisted _) :: args), h => h.elems.operator_listed.elim
  | .list s (.symbol headSpan sym :: args), h => by
    refine ((safe_lookup sym).bind fun found hfound => ?_).guarded h.span opts
    have hargs := safe_evalAll opts h.elems.rest
    cases found with
    | none => exact safe_fail h.elems.span _
    | some v =>
      cases v with
      | function index =>
        exact hargs.bind fun vs _ => safe_call opts h.span (hfound _ rfl) vs
      | nil | bool | integer | keyword | string | vector | unlisted =>
        exact safe_fail h.elems.span _
  | .list s (.bool _ _ :: _), h | .list s (.integer _ _ :: _), h
  | .list s (.keyword _ _ :: _), h | .list s (.list _ _ :: _), h
  | .list s (.nil _ :: _), h | .list s (.string _ :: _), h
  | .list s (.vector _ _ :: _), h | .list s (.unlisted _ _ :: _), h =>
    (safe_fail h.elems.span _).guarded h.span opts
  -- The parser leaves operators at the heads of lists only.
  | .operator _ _, h => h.not_operator.elim
  | .unlisted _ _, h => h.faithful.1.elim

theorem safe_evalAll (opts : EvalOptions) :
    ∀ {es : List Expr}, Ready source names S false es →
      Safe names S (Value.KnownAll names) (evalAll opts source es)
  | [], _ => safe_pure (a := []) trivial
  | _ :: _, h =>
    (safe_eval opts h.first).bind fun v hv =>
      (safe_evalAll opts h.rest).bind fun vs hvs => safe_pure (a := v :: vs) ⟨hv, hvs⟩

theorem safe_evalDefine (opts : EvalOptions) {span : Span} (hspan : S span) :
    ∀ {args : List Expr}, Ready source names S false args →
      Safe names S (Value.Known names) (evalDefine opts source span args)
  -- Too few or too many arguments fail whatever the first one is.
  | [], _ => safe_fail hspan _
  | [x], _ | x :: _ :: _ :: _, _ => by cases x <;> exact safe_fail hspan _
  | [.symbol s sym, e], h =>
    (safe_eval opts h.rest.first).bind fun _ hv => safe_define h.symbol_within h.symbol_lt hv
  | [.bool _ _, _], h | [.integer _ _, _], h | [.keyword _ _, _], h | [.list _ _, _], h
  | [.nil _, _], h | [.operator _ _, _], h | [.string _, _], h | [.vector _ _, _], h
  | [.unlisted _ _, _], h => safe_fail h.span _

theorem safe_evalCond (opts : EvalOptions) {span : Span} (hspan : S span) :
    ∀ {args : List Expr}, Ready source names S false args →
      Safe names S (Value.Known names) (evalCond opts source span args)
  | [], _ | [_], _ | [_, _], _ | _ :: _ :: _ :: _ :: _, _ => safe_fail hspan _
  | [test, yes, no], h => by
    have hyes := safe_eval opts h.rest.first
    have hno := safe_eval opts h.rest.rest.first
    refine (safe_eval opts h.first).bind fun v _ => ?_
    cases v.isTruthy with
    | true => exact hyes
    | false => exact hno

theorem safe_evalLet (opts : EvalOptions) {span : Span} (hspan : S span) :
    ∀ {args : List Expr}, Ready source names S false args →
      Safe names S (Value.Known names) (evalLet opts source span args)
  | [], _ => safe_fail hspan _
  | [x], _ | x :: _ :: _ :: _, _ => by cases x <;> exact safe_fail hspan _
  | [.list s elems, body], h => by
    rw [evalLet]
    exact safe_letFrame opts h.span (safe_evalBindings opts h.first.elems)
      (safe_eval opts h.rest.first)
  | [.vector s elems, body], h => by
    rw [evalLet]
    exact safe_letFrame opts h.span (safe_evalBindings opts h.first.vectorElems)
      (safe_eval opts h.rest.first)
  | [.bool _ _, _], h | [.integer _ _, _], h | [.keyword _ _, _], h | [.symbol _ _, _], h
  | [.nil _, _], h | [.operator _ _, _], h | [.string _, _], h | [.unlisted _ _, _], h =>
    safe_fail h.span _

theorem safe_evalBindings (opts : EvalOptions) :
    ∀ {head : Bool} {es : List Expr}, Ready source names S head es →
      Safe names S (fun _ => True) (evalBindings opts source es)
  | _, [], _ => safe_pure trivial
  | _, [x], _ => by cases x <;> exact safe_pure trivial
  | _, .symbol s sym :: e :: rest, h =>
    (safe_eval opts h.rest.first).bind fun _ hv =>
      (safe_bindSymbol h.symbol_lt hv).bind fun _ _ => safe_evalBindings opts h.rest.rest
  | _, .bool _ _ :: _ :: _, h | _, .integer _ _ :: _ :: _, h | _, .keyword _ _ :: _ :: _, h
  | _, .list _ _ :: _ :: _, h | _, .nil _ :: _ :: _, h | _, .operator _ _ :: _ :: _, h
  | _, .string _ :: _ :: _, h | _, .vector _ _ :: _ :: _, h | _, .unlisted _ _ :: _ :: _, h =>
    safe_fail h.span _

end

end Evaluation

end SpanLisp
