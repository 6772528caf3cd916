import SpanLisp.Eval
import SpanLisp.Proofs.Layout
import SpanLisp.Proofs.Sessions

/-! Evaluation depends on the places of a tree only for the places it blames: trees that are the
same but for their places evaluate to the same value, or fail the same way at corresponding places,
and leave the same stack. -/

namespace SpanLisp

/-! ### Trees in other places -/

namespace Expr

mutual

/-- The trees, of the sources `a` and `b`, are the same but for their places: corresponding nodes
stand in related places, and names and strings have the same bytes. -/
inductive Congruent (a b : Bytes) (R : Span → Span → Prop) : Expr → Expr → Prop
  | bool {s s' : Span} (h : R s s') (v : Bool) : Congruent a b R (.bool s v) (.bool s' v)
  | integer {s s' : Span} (h : R s s') (n : Int64) :
      Congruent a b R (.integer s n) (.integer s' n)
  | keyword {s s' : Span} (h : R s s') (sym : Symbol) :
      Congruent a b R (.keyword s sym) (.keyword s' sym)
  | list {s s' : Span} (h : R s s') {xs ys : List Expr} (hs : CongruentAll a b R xs ys) :
      Congruent a b R (.list s xs) (.list s' ys)
  | nil {s s' : Span} (h : R s s') : Congruent a b R (.nil s) (.nil s')
  | operator {s s' : Span} (h : R s s') (op : Operator) :
      Congruent a b R (.operator s op) (.operator s' op)
  | string {s s' : Span} (h : R s s') (htext : slice a s = slice b s') :
      Congruent a b R (.string s) (.string s')
  | symbol {s s' : Span} (h : R s s') (htext : slice a s = slice b s') (sym : Symbol) :
      Congruent a b R (.symbol s sym) (.symbol s' sym)
  | vector {s s' : Span} (h : R s s') {xs ys : List Expr} (hs : CongruentAll a b R xs ys) :
      Congruent a b R (.vector s xs) (.vector s' ys)
  | unlisted {s s' : Span} (h : R s s') (code : Int) :
      Congruent a b R (.unlisted s code) (.unlisted s' code)

/-- The trees are the same in pairs but for their places. -/
inductive CongruentAll (a b : Bytes) (R : Span → Span → Prop) : List Expr → List Expr → Prop
  | nil : CongruentAll a b R [] []
  | cons {x y : Expr} {xs ys : List Expr} (h : Congruent a b R x y)
      (hs : CongruentAll a b R xs ys) : CongruentAll a b R (x :: xs) (y :: ys)

end

variable {a b : Bytes} {R : Span → Span → Prop}

theorem CongruentAll.length_eq : ∀ {xs ys : List Expr}, CongruentAll a b R xs ys →
    xs.length = ys.length
  | [], _, .nil => rfl
  | _ :: _, _, .cons _ hs => congrArg (· + 1) hs.length_eq

theorem stringText_congr {s s' : Span} (h : slice a s = slice b s') :
    stringText a s = stringText b s' := by
  unfold stringText
  rw [h]

/-! ### Corresponding nodes -/

/-- The places belong to corresponding nodes of the trees. -/
def AtSameNode (xs ys : List Expr) (s s' : Span) : Prop :=
  ∃ p ∈ (nodesAll xs).zip (nodesAll ys), p.1.span = s ∧ p.2.span = s'

mutual

theorem length_nodes_of_bare : ∀ {x y : Expr}, x.bare a = y.bare b →
    x.nodes.length = y.nodes.length
  | .list _ _, .list _ _, h => congrArg (· + 1) (length_nodesAll_of_bare (Bare.list.inj h))
  | .vector _ _, .vector _ _, h => congrArg (· + 1) (length_nodesAll_of_bare (Bare.vector.inj h))
  | .bool _ _, .bool _ _, _ | .integer _ _, .integer _ _, _ | .keyword _ _, .keyword _ _, _
  | .nil _, .nil _, _ | .operator _ _, .operator _ _, _ | .string _, .string _, _
  | .symbol _ _, .symbol _ _, _ | .unlisted _ _, .unlisted _ _, _ => rfl

theorem length_nodesAll_of_bare : ∀ {xs ys : List Expr}, bareAll a xs = bareAll b ys →
    (nodesAll xs).length = (nodesAll ys).length
  | [], [], _ => rfl
  | _ :: _, _ :: _, h => by
    obtain ⟨hx, hxs⟩ := List.cons.inj h
    rw [nodesAll, nodesAll, List.length_append, List.length_append, length_nodes_of_bare hx,
      length_nodesAll_of_bare hxs]

end

/-- The nodes lie within their sources, and in pairs in related places. -/
structure Placed (a b : Bytes) (R : Span → Span → Prop) (ns ms : List Expr) : Prop where
  left : ∀ n ∈ ns, n.span.Within a.length
  right : ∀ n ∈ ms, n.span.Within b.length
  related : ∀ p ∈ ns.zip ms, R p.1.span p.2.span

theorem Placed.head {n m : Expr} {ns ms : List Expr} (h : Placed a b R (n :: ns) (m :: ms)) :
    R n.span m.span :=
  h.related (n, m) List.mem_cons_self

theorem Placed.tail {n m : Expr} {ns ms : List Expr} (h : Placed a b R (n :: ns) (m :: ms)) :
    Placed a b R ns ms where
  left k hk := h.left k (List.mem_cons_of_mem _ hk)
  right k hk := h.right k (List.mem_cons_of_mem _ hk)
  related p hp := h.related p (List.mem_cons_of_mem _ hp)

theorem Placed.append {ns ns' ms ms' : List Expr} (h : Placed a b R (ns ++ ns') (ms ++ ms'))
    (hlength : ns.length = ms.length) : Placed a b R ns ms ∧ Placed a b R ns' ms' := by
  have hrelated := h.related
  rw [List.zip_append hlength] at hrelated
  exact ⟨⟨fun n hn => h.left n (List.mem_append_left _ hn),
      fun n hn => h.right n (List.mem_append_left _ hn),
      fun p hp => hrelated p (List.mem_append_left _ hp)⟩,
    ⟨fun n hn => h.left n (List.mem_append_right _ hn),
      fun n hn => h.right n (List.mem_append_right _ hn),
      fun p hp => hrelated p (List.mem_append_right _ hp)⟩⟩

theorem Placed.slice_eq {n m : Expr} {ns ms : List Expr} (h : Placed a b R (n :: ns) (m :: ms))
    (htext : n.span.of a = m.span.of b) : slice a n.span = slice b m.span := by
  rw [slice_of_within (h.left n List.mem_cons_self), slice_of_within (h.right m List.mem_cons_self),
    htext]

mutual

theorem congruent_of_bare : ∀ {x y : Expr}, x.bare a = y.bare b → Placed a b R x.nodes y.nodes →
    Congruent a b R x y
  | .bool _ _, .bool _ _, h, hp => by
    cases h
    exact .bool hp.head _
  | .integer _ _, .integer _ _, h, hp => by
    cases h
    exact .integer hp.head _
  | .keyword _ _, .keyword _ _, h, hp => by
    obtain ⟨rfl, -⟩ := Bare.keyword.inj h
    exact .keyword hp.head _
  | .list _ _, .list _ _, h, hp =>
    .list hp.head (congruentAll_of_bare (Bare.list.inj h) hp.tail)
  | .nil _, .nil _, _, hp => .nil hp.head
  | .operator _ _, .operator _ _, h, hp => by
    obtain ⟨rfl, -⟩ := Bare.operator.inj h
    exact .operator hp.head _
  | .string _, .string _, h, hp => .string hp.head (hp.slice_eq (Bare.string.inj h))
  | .symbol _ _, .symbol _ _, h, hp => by
    obtain ⟨rfl, htext⟩ := Bare.symbol.inj h
    exact .symbol hp.head (hp.slice_eq htext) _
  | .vector _ _, .vector _ _, h, hp =>
    .vector hp.head (congruentAll_of_bare (Bare.vector.inj h) hp.tail)
  | .unlisted _ _, .unlisted _ _, h, hp => by
    cases h
    exact .unlisted hp.head _

theorem congruentAll_of_bare : ∀ {xs ys : List Expr}, bareAll a xs = bareAll b ys →
    Placed a b R (nodesAll xs) (nodesAll ys) → CongruentAll a b R xs ys
  | [], [], _, _ => .nil
  | _ :: _, _ :: _, h, hp => by
    obtain ⟨hx, hxs⟩ := List.cons.inj h
    obtain ⟨hhead, htail⟩ := hp.append (length_nodes_of_bare hx)
    exact .cons (congruent_of_bare hx hhead) (congruentAll_of_bare hxs htail)

end

/-- Trees that are the same without their places are congruent at their nodes. -/
theorem congruentAll_atSameNode {xs ys : List Expr} (h : bareAll a xs = bareAll b ys)
    (hxs : ∀ n ∈ nodesAll xs, n.span.Within a.length)
    (hys : ∀ n ∈ nodesAll ys, n.span.Within b.length) :
    CongruentAll a b (AtSameNode xs ys) xs ys :=
  congruentAll_of_bare h ⟨hxs, hys, fun p hp => ⟨p, hp, rfl, rfl⟩⟩

end Expr

/-! ### Computations in other places -/

/-- The faults are the same but for the places they blame. -/
inductive Fault.Congruent (R : Span → Span → Prop) : Fault → Fault → Prop
  | failed (kind : EvalError.Kind) {s s' : Span} (h : R s s') :
      Congruent R (.failed ⟨kind, s⟩) (.failed ⟨kind, s'⟩)
  | misplaced (op : Operator) {s s' : Span} (h : R s s') :
      Congruent R (.defect (.misplacedOperator op s)) (.defect (.misplacedOperator op s'))
  | defect (d : Defect) : Congruent R (.defect d) (.defect d)

/-- The results are the same but for the places they blame. -/
inductive CongruentEnd {α : Type} (R : Span → Span → Prop) : Except Fault α → Except Fault α → Prop
  | ok (a : α) : CongruentEnd R (.ok a) (.ok a)
  | error {f f' : Fault} (h : f.Congruent R f') : CongruentEnd R (.error f) (.error f')

/-- From machines with the same stack and depth the computations end the same way, but for the
places they blame, and leave such machines. -/
def Parallel {α : Type} (R : Span → Span → Prop) (x y : EvalM α) : Prop :=
  ∀ m m' : Machine, m.stack = m'.stack → m.depth = m'.depth →
    CongruentEnd R (x m).1 (y m').1 ∧ (x m).2.stack = (y m').2.stack ∧
      (x m).2.depth = (y m').2.depth

variable {α β : Type} {R : Span → Span → Prop} {a b : Bytes}

theorem parallel_result {r r' : Except Fault α} (h : CongruentEnd R r r') :
    Parallel R (fun m => (r, m)) (fun m => (r', m)) :=
  fun _ _ hstack hdepth => ⟨h, hstack, hdepth⟩

theorem parallel_pure (v : α) : Parallel R (pure v) (pure v) :=
  parallel_result (.ok v)

theorem parallel_fail (kind : EvalError.Kind) {s s' : Span} (h : R s s') :
    Parallel R (EvalM.fail (α := α) kind s) (EvalM.fail kind s') :=
  parallel_result (.error (.failed kind h))

theorem parallel_defect (d : Defect) :
    Parallel R (EvalM.throw (α := α) (.defect d)) (EvalM.throw (.defect d)) :=
  parallel_result (.error (.defect d))

theorem parallel_ofExcept (r : Except Defect α) :
    Parallel R (EvalM.ofExcept r) (EvalM.ofExcept r) := by
  cases r with
  | ok v => exact parallel_pure v
  | error d => exact parallel_defect d

theorem Parallel.bind {x y : EvalM α} {f g : α → EvalM β} (hxy : Parallel R x y)
    (hfg : ∀ v, Parallel R (f v) (g v)) : Parallel R (x >>= f) (y >>= g) := by
  intro m m' hstack hdepth
  obtain ⟨hend, hstack₁, hdepth₁⟩ := hxy m m' hstack hdepth
  rcases hx : x m with ⟨r, m₁⟩
  rcases hy : y m' with ⟨r', m₁'⟩
  rw [hx, hy] at hend hstack₁ hdepth₁
  cases hend with
  | error h =>
    rw [EvalM.bind_of_error hx, EvalM.bind_of_error hy]
    exact ⟨.error h, hstack₁, hdepth₁⟩
  | ok v =>
    rw [EvalM.bind_of_ok hx, EvalM.bind_of_ok hy]
    exact hfg v m₁ m₁' hstack₁ hdepth₁

-- The events need not be the same: a refused call is reported with its place.
theorem parallel_report (opts : EvalOptions) (e e' : Event) :
    Parallel R (EvalM.report opts e) (EvalM.report opts e') := by
  intro m m' hstack hdepth
  unfold EvalM.report
  cases opts.trace with
  | false => exact ⟨.ok (), hstack, hdepth⟩
  | true => exact ⟨.ok (), hstack, hdepth⟩

theorem parallel_topFrame : Parallel R EvalM.topFrame EvalM.topFrame := by
  intro m m' hstack hdepth
  refine ⟨?_, hstack, hdepth⟩
  unfold EvalM.topFrame
  rw [hstack]
  exact .ok _

theorem parallel_lookup (sym : Symbol) : Parallel R (EvalM.lookup sym) (EvalM.lookup sym) := by
  intro m m' hstack hdepth
  unfold EvalM.lookup
  rw [hstack]
  cases m'.stack.lookup sym with
  | ok r => exact ⟨.ok _, hstack, hdepth⟩
  | error d => exact ⟨.error (.defect d), hstack, hdepth⟩

theorem parallel_onStack (x : StackM Defect α) :
    Parallel R (EvalM.onStack x) (EvalM.onStack x) := by
  intro m m' hstack hdepth
  unfold EvalM.onStack
  rw [hstack]
  refine ⟨?_, rfl, hdepth⟩
  cases (x m'.stack).1 with
  | ok a => exact .ok a
  | error d => exact .error (.defect d)

theorem parallel_bindSymbol (sym : Symbol) (v : Value) :
    Parallel R (EvalM.bindSymbol sym v) (EvalM.bindSymbol sym v) :=
  parallel_onStack _

theorem Parallel.guarded {x y : EvalM α} (hxy : Parallel R x y) (opts : EvalOptions) {s s' : Span}
    (h : R s s') :
    Parallel R (EvalM.guarded opts s x) (EvalM.guarded opts s' y) := by
  intro m m' hstack hdepth
  unfold EvalM.guarded
  simp only [hdepth]
  split
  · exact ⟨.error (.failed _ h), hstack, rfl⟩
  · obtain ⟨hend, hstack₁, hdepth₁⟩ := hxy { m with depth := m'.depth + 1 }
      { m' with depth := m'.depth + 1 } hstack rfl
    exact ⟨hend, hstack₁, congrArg (· - 1) hdepth₁⟩

theorem Parallel.thenAlways {x y : EvalM α} {z w : EvalM Unit} (hxy : Parallel R x y)
    (hzw : Parallel R z w) : Parallel R (EvalM.thenAlways x z) (EvalM.thenAlways y w) := by
  intro m m' hstack hdepth
  obtain ⟨hend, hstack₁, hdepth₁⟩ := hxy m m' hstack hdepth
  obtain ⟨hend', hstack₂, hdepth₂⟩ := hzw _ _ hstack₁ hdepth₁
  rcases hz : z (x m).2 with ⟨r, m₂⟩
  rcases hw : w (y m').2 with ⟨r', m₂'⟩
  rw [hz, hw] at hend' hstack₂ hdepth₂
  cases hend' with
  | ok _ =>
    rw [EvalM.thenAlways_of_ok hz, EvalM.thenAlways_of_ok hw]
    exact ⟨hend, hstack₂, hdepth₂⟩
  | error h =>
    rw [EvalM.thenAlways_of_error hz, EvalM.thenAlways_of_error hw]
    exact ⟨.error h, hstack₂, hdepth₂⟩

theorem Parallel.inFrame {x y : EvalM α} (hxy : Parallel R x y) (name : Bytes) :
    Parallel R (EvalM.inFrame name x) (EvalM.inFrame name y) :=
  (parallel_onStack _).bind fun _ => hxy.thenAlways (parallel_onStack _)

theorem parallel_define (opts : EvalOptions) {s s' : Span} (htext : slice a s = slice b s')
    (sym : Symbol) (v : Value) : Parallel R (define opts a s sym v) (define opts b s' sym v) := by
  unfold define
  rw [htext]
  refine (parallel_bindSymbol sym v).bind fun _ => ?_
  cases opts.trace with
  | false => exact parallel_pure v
  | true =>
    refine (parallel_ofExcept _).bind fun name => parallel_topFrame.bind fun frame => ?_
    exact (parallel_report opts _ _).bind fun _ => parallel_pure v

theorem parallel_call (opts : EvalOptions) {s s' : Span} (h : R s s') (index : Int)
    (args : List Value) :
    Parallel R (call opts s index args) (call opts s' index args) := by
  unfold call
  cases Builtin.get? index with
  | none => exact parallel_defect _
  | some f =>
    simp only
    cases f.apply args with
    | ok v => exact parallel_pure v
    | error why => exact (parallel_report opts _ _).bind fun _ => parallel_fail _ h

/-! ### Evaluation -/

variable {opts : EvalOptions}

-- The recursion follows the first tree; the relation gives the second its shape.

mutual

theorem parallel_eval : ∀ (e : Expr) {e' : Expr}, e.Congruent a b R e' →
    Parallel R (e.eval opts a) (e'.eval opts b)
  | .bool _ v, _, .bool h _ => (parallel_pure (Value.bool v)).guarded opts h
  | .integer _ n, _, .integer h _ => (parallel_pure (Value.integer n)).guarded opts h
  | .nil _, _, .nil h => (parallel_pure Value.nil).guarded opts h
  | .keyword _ sym, _, .keyword h _ => (parallel_pure (Value.keyword sym)).guarded opts h
  | .string _, _, .string h htext => by
    rw [Expr.eval, Expr.eval, Expr.stringText_congr htext]
    exact ((parallel_ofExcept _).bind fun _ => parallel_pure _).guarded opts h
  | .symbol _ sym, _, .symbol h _ _ => by
    refine ((parallel_lookup sym).bind fun found => ?_).guarded opts h
    cases found with
    | none => exact parallel_fail _ h
    | some v => exact parallel_pure v
  | .vector _ elems, _, .vector h hs =>
    ((parallel_evalAll elems hs).bind fun _ => parallel_pure _).guarded opts h
  | .list _ [], _, .list h .nil => (parallel_fail _ h).guarded opts h
  | .list _ (_ :: args), _, .list h (.cons hhead hargs) => by
    have hdefine := parallel_evalDefine h args hargs
    have hcond := parallel_evalCond h args hargs
    have hlet := parallel_evalLet h args hargs
    have hvalues := parallel_evalAll args hargs
    cases hhead with
    | operator _ op =>
      cases op with
      | define => exact hdefine.guarded opts h
      | cond => exact hcond.guarded opts h
      | letStar => exact hlet.guarded opts h
      | unlisted _ => exact (parallel_defect _).guarded opts h
    | symbol hplace _ sym =>
      refine ((parallel_lookup sym).bind fun found => ?_).guarded opts h
      cases found with
      | none => exact parallel_fail _ hplace
      | some v =>
        cases v with
        | function index => exact hvalues.bind fun vs => parallel_call opts h index vs
        | nil | bool | integer | keyword | string | vector | unlisted =>
          exact parallel_fail _ hplace
    | bool hplace | integer hplace | keyword hplace | list hplace | nil hplace | string hplace
    | vector hplace | unlisted hplace =>
      exact (parallel_fail .expectedSymbol hplace).guarded opts h
  | .operator _ op, _, .operator h _ =>
    (parallel_result (.error (.misplaced op h))).guarded opts h
  | .unlisted _ _, _, .unlisted h _ => (parallel_defect _).guarded opts h
termination_by structural e => e

theorem parallel_evalAll : ∀ (es : List Expr) {es' : List Expr}, Expr.CongruentAll a b R es es' →
    Parallel R (evalAll opts a es) (evalAll opts b es')
  | [], _, .nil => parallel_pure _
  | e :: es, _, .cons h hs =>
    (parallel_eval e h).bind fun _ => (parallel_evalAll es hs).bind fun _ => parallel_pure _
termination_by structural es => es

theorem parallel_evalDefine {s s' : Span} (hspan : R s s') :
    ∀ (args : List Expr) {args' : List Expr}, Expr.CongruentAll a b R args args' →
      Parallel R (evalDefine opts a s args) (evalDefine opts b s' args')
  | [], _, .nil => parallel_fail _ hspan
  | [_], _, .cons h .nil | _ :: _ :: _ :: _, _, .cons h (.cons _ (.cons _ _)) => by
    cases h <;> exact parallel_fail _ hspan
  | [_, e], _, .cons hname (.cons h .nil) => by
    have hvalue := parallel_eval e h
    cases hname with
    | symbol _ htext sym => exact hvalue.bind fun v => parallel_define opts htext sym v
    | bool hplace | integer hplace | keyword hplace | list hplace | nil hplace | operator hplace
    | string hplace | vector hplace | unlisted hplace =>
      exact parallel_fail _ hplace
termination_by structural args => args

theorem parallel_evalCond {s s' : Span} (hspan : R s s') :
    ∀ (args : List Expr) {args' : List Expr}, Expr.CongruentAll a b R args args' →
      Parallel R (evalCond opts a s args) (evalCond opts b s' args')
  | [], _, .nil | [_], _, .cons _ .nil | [_, _], _, .cons _ (.cons _ .nil)
  | _ :: _ :: _ :: _ :: _, _, .cons _ (.cons _ (.cons _ (.cons _ _))) => parallel_fail _ hspan
  | [test, yes, no], _, .cons htest (.cons hyes (.cons hno .nil)) => by
    have hyes := parallel_eval yes hyes
    have hno := parallel_eval no hno
    refine (parallel_eval test htest).bind fun v => ?_
    cases v.isTruthy with
    | true => exact hyes
    | false => exact hno
termination_by structural args => args

theorem parallel_evalLet {s s' : Span} (hspan : R s s') :
    ∀ (args : List Expr) {args' : List Expr}, Expr.CongruentAll a b R args args' →
      Parallel R (evalLet opts a s args) (evalLet opts b s' args')
  | [], _, .nil => parallel_fail _ hspan
  | [_], _, .cons h .nil | _ :: _ :: _ :: _, _, .cons h (.cons _ (.cons _ _)) => by
    cases h <;> exact parallel_fail _ hspan
  | [.list _ elems, body], _, .cons (.list hplace helems) (.cons hbody .nil)
  | [.vector _ elems, body], _, .cons (.vector hplace helems) (.cons hbody .nil) => by
    have hbindings := parallel_evalBindings elems helems
    have hbody := parallel_eval body hbody
    rw [evalLet, evalLet, helems.length_eq]
    split
    · exact parallel_fail _ hplace
    · refine Parallel.inFrame (parallel_topFrame.bind fun frame => ?_) _
      exact (parallel_report opts _ _).bind fun _ => hbindings.bind fun _ => hbody
  | [.bool _ _, _], _, .cons (.bool hplace _) (.cons _ .nil)
  | [.integer _ _, _], _, .cons (.integer hplace _) (.cons _ .nil)
  | [.keyword _ _, _], _, .cons (.keyword hplace _) (.cons _ .nil)
  | [.symbol _ _, _], _, .cons (.symbol hplace _ _) (.cons _ .nil)
  | [.nil _, _], _, .cons (.nil hplace) (.cons _ .nil)
  | [.operator _ _, _], _, .cons (.operator hplace _) (.cons _ .nil)
  | [.string _, _], _, .cons (.string hplace _) (.cons _ .nil)
  | [.unlisted _ _, _], _, .cons (.unlisted hplace _) (.cons _ .nil) => parallel_fail _ hplace
termination_by structural args => args

theorem parallel_evalBindings : ∀ (es : List Expr) {es' : List Expr},
    Expr.CongruentAll a b R es es' → Parallel R (evalBindings opts a es) (evalBindings opts b es')
  | [], _, .nil => parallel_pure ()
  | [_], _, .cons h .nil => by cases h <;> exact parallel_pure ()
  | _ :: e :: rest, _, .cons hname (.cons h hrest) => by
    have hvalue := parallel_eval e h
    have hrest := parallel_evalBindings rest hrest
    cases hname with
    | symbol _ _ sym =>
      exact hvalue.bind fun v => (parallel_bindSymbol sym v).bind fun _ => hrest
    | bool hplace | integer hplace | keyword hplace | list hplace | nil hplace | operator hplace
    | string hplace | vector hplace | unlisted hplace =>
      exact parallel_fail _ hplace
termination_by structural es => es

end

theorem parallel_evalEach (opts : EvalOptions) :
    ∀ {es es' : List Expr} (last : Value), Expr.CongruentAll a b R es es' →
      Parallel R (Session.evalEach opts a last es) (Session.evalEach opts b last es')
  | [], _, last, .nil => parallel_pure last
  | e :: _, _, _, .cons h hs => (parallel_eval e h).bind fun v => parallel_evalEach opts v hs

/-- A computation in other places, run in the same session, ends the same way and leaves the same
session. -/
theorem Parallel.run {x y : EvalM α} (hxy : Parallel R x y) (s : Session) :
    CongruentEnd R (s.run x).result (s.run y).result ∧ (s.run x).session = (s.run y).session := by
  obtain ⟨hend, hstack, hdepth⟩ := hxy s.machine s.machine rfl rfl
  refine ⟨hend, ?_⟩
  show { s with stack := _, depth := _ } = { s with stack := _, depth := _ }
  rw [Session.mk.injEq]
  exact ⟨rfl, rfl, hstack, hdepth, rfl⟩

end SpanLisp
