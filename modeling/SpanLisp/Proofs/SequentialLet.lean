import SpanLisp.Proofs.Reference
import SpanLisp.Proofs.Writes

/-!
# `let*` binds one name after the other

The bindings of a `let*` can be cut in two, and the second part moved into a `let*` of its own
around the body.  The two forms spread the same bindings over one frame and over two.  No
computation of the evaluator tells the difference: each does what some computation on the map of the
visible bindings does (`FrameBlind`), and a frame of its own is a copy of that map
(`Simulates.inFrame`).
-/

namespace SpanLisp

open Reference (EnvM)

/-! ### Frames are not seen -/

/-- The computation does what some computation on the visible bindings does, whatever frames these
bindings are in. -/
def FrameBlind {α : Type} (x : EvalM α) : Prop := ∃ y : EnvM α, Simulates x y

section Rules

variable {α β : Type}

theorem Simulates.frameBlind {x : EvalM α} {y : EnvM α} (h : Simulates x y) : FrameBlind x := ⟨y, h⟩

theorem frameBlind_pure (a : α) : FrameBlind (pure a) := (simulates_pure a).frameBlind

theorem frameBlind_throw (f : Fault) : FrameBlind (EvalM.throw f : EvalM α) :=
  (simulates_throw f).frameBlind

theorem frameBlind_fail (kind : EvalError.Kind) (span : Span) :
    FrameBlind (EvalM.fail kind span : EvalM α) :=
  frameBlind_throw _

theorem FrameBlind.bind {x : EvalM α} {f : α → EvalM β} (hx : FrameBlind x)
    (hf : ∀ a, FrameBlind (f a)) : FrameBlind (x >>= f) := by
  obtain ⟨y, hxy⟩ := hx
  obtain ⟨g, hfg⟩ := Classical.axiomOfChoice hf
  exact (hxy.bind hfg).frameBlind

theorem FrameBlind.guarded {opts : EvalOptions} (hlimit : opts.limit = 0) {x : EvalM α}
    (h : FrameBlind x) (span : Span) : FrameBlind (EvalM.guarded opts span x) := by
  obtain ⟨y, hxy⟩ := h
  exact (hxy.guarded hlimit span).frameBlind

theorem FrameBlind.inFrame {x : EvalM α} (h : FrameBlind x) (name : Bytes) :
    FrameBlind (EvalM.inFrame name x) := by
  obtain ⟨y, hxy⟩ := h
  exact (hxy.inFrame name).frameBlind

/-- A definition may fail to be reported, if its name lies outside the source; that too depends on
no frame. -/
theorem frameBlind_define (opts : EvalOptions) (source : Bytes) (span : Span) (sym : Symbol)
    (v : Value) : FrameBlind (define opts source span sym v) := by
  unfold define
  refine (simulates_bindSymbol sym v).frameBlind.bind fun _ => ?_
  cases opts.trace with
  | false => exact frameBlind_pure v
  | true =>
    exact (simulates_ofExcept _).frameBlind.bind fun name =>
      ((simulates_reportTop opts (.defined name v.kindText)).bind fun _ =>
        simulates_pure v).frameBlind

end Rules

variable {opts : EvalOptions} {source : Bytes}

mutual

theorem frameBlind_eval (hlimit : opts.limit = 0) : ∀ e : Expr, FrameBlind (e.eval opts source)
  | .bool span b => (frameBlind_pure (Value.bool b)).guarded hlimit span
  | .integer span n => (frameBlind_pure (Value.integer n)).guarded hlimit span
  | .nil span => (frameBlind_pure Value.nil).guarded hlimit span
  | .keyword span sym => (frameBlind_pure (Value.keyword sym)).guarded hlimit span
  | .string span => ((simulates_ofExcept _).frameBlind.bind fun text =>
      frameBlind_pure (Value.string text)).guarded hlimit span
  | .symbol span sym => by
    refine FrameBlind.guarded hlimit ((simulates_lookup sym).frameBlind.bind fun found => ?_) span
    cases found with
    | none => exact frameBlind_fail _ span
    | some v => exact frameBlind_pure v
  | .vector span elems => ((frameBlind_evalAll hlimit elems).bind fun vs =>
      frameBlind_pure (Value.vector vs)).guarded hlimit span
  | .list span [] => (frameBlind_fail .emptyList span).guarded hlimit span
  | .list span (.operator _ .define :: args) =>
    (frameBlind_evalDefine hlimit span args).guarded hlimit span
  | .list span (.operator _ .cond :: args) =>
    (frameBlind_evalCond hlimit span args).guarded hlimit span
  | .list span (.operator _ .letStar :: args) =>
    (frameBlind_evalLet hlimit span args).guarded hlimit span
  | .list span (.operator _ (.unlisted _) :: _) => (frameBlind_throw _).guarded hlimit span
  | .list span (.symbol headSpan sym :: args) => by
    have hargs := frameBlind_evalAll hlimit args
    refine FrameBlind.guarded hlimit ((simulates_lookup sym).frameBlind.bind fun found => ?_) span
    cases found with
    | none => exact frameBlind_fail _ headSpan
    | some v =>
      cases v with
      | function index =>
        exact hargs.bind fun vs => (simulates_call opts span index vs).frameBlind
      | nil | bool | integer | keyword | string | vector | unlisted =>
        exact frameBlind_fail _ headSpan
  | .list span (.bool _ _ :: _) | .list span (.integer _ _ :: _)
  | .list span (.keyword _ _ :: _) | .list span (.list _ _ :: _)
  | .list span (.nil _ :: _) | .list span (.string _ :: _)
  | .list span (.vector _ _ :: _) | .list span (.unlisted _ _ :: _) =>
    (frameBlind_fail _ _).guarded hlimit span
  | .operator span _ | .unlisted span _ => (frameBlind_throw _).guarded hlimit span

theorem frameBlind_evalAll (hlimit : opts.limit = 0) :
    ∀ es : List Expr, FrameBlind (evalAll opts source es)
  | [] => frameBlind_pure []
  | e :: es => (frameBlind_eval hlimit e).bind fun v =>
      (frameBlind_evalAll hlimit es).bind fun vs => frameBlind_pure (v :: vs)

theorem frameBlind_evalDefine (hlimit : opts.limit = 0) (span : Span) :
    ∀ args : List Expr, FrameBlind (evalDefine opts source span args)
  | [] => frameBlind_fail _ span
  | [x] | x :: _ :: _ :: _ => by cases x <;> exact frameBlind_fail _ span
  | [.symbol s sym, e] => (frameBlind_eval hlimit e).bind fun v =>
      frameBlind_define opts source s sym v
  | [.bool _ _, _] | [.integer _ _, _] | [.keyword _ _, _] | [.list _ _, _]
  | [.nil _, _] | [.operator _ _, _] | [.string _, _] | [.vector _ _, _]
  | [.unlisted _ _, _] => frameBlind_fail _ _

theorem frameBlind_evalCond (hlimit : opts.limit = 0) (span : Span) :
    ∀ args : List Expr, FrameBlind (evalCond opts source span args)
  | [] | [_] | [_, _] | _ :: _ :: _ :: _ :: _ => frameBlind_fail _ span
  | [test, yes, no] => by
    have hyes := frameBlind_eval hlimit yes
    have hno := frameBlind_eval hlimit no
    refine (frameBlind_eval hlimit test).bind fun v => ?_
    cases v.isTruthy with
    | true => exact hyes
    | false => exact hno

theorem frameBlind_evalLet (hlimit : opts.limit = 0) (span : Span) :
    ∀ args : List Expr, FrameBlind (evalLet opts source span args)
  | [] => frameBlind_fail _ span
  | [x] | x :: _ :: _ :: _ => by cases x <;> exact frameBlind_fail _ span
  | [.list s elems, body] | [.vector s elems, body] => by
    rw [evalLet]
    split
    · exact frameBlind_fail _ s
    · exact ((simulates_reportTop opts _).frameBlind.bind fun _ =>
        (frameBlind_evalBindings hlimit elems).bind fun _ => frameBlind_eval hlimit body).inFrame _
  | [.bool _ _, _] | [.integer _ _, _] | [.keyword _ _, _] | [.symbol _ _, _]
  | [.nil _, _] | [.operator _ _, _] | [.string _, _] | [.unlisted _ _, _] =>
    frameBlind_fail _ _

theorem frameBlind_evalBindings (hlimit : opts.limit = 0) :
    ∀ es : List Expr, FrameBlind (evalBindings opts source es)
  | [] => frameBlind_pure ()
  | [x] => by cases x <;> exact frameBlind_pure ()
  | .symbol _ sym :: e :: rest => (frameBlind_eval hlimit e).bind fun v =>
      (simulates_bindSymbol sym v).frameBlind.bind fun _ => frameBlind_evalBindings hlimit rest
  | .bool _ _ :: _ :: _ | .integer _ _ :: _ :: _ | .keyword _ _ :: _ :: _
  | .list _ _ :: _ :: _ | .nil _ :: _ :: _ | .operator _ _ :: _ :: _
  | .string _ :: _ :: _ | .vector _ _ :: _ :: _ | .unlisted _ _ :: _ :: _ =>
    frameBlind_fail _ _

end

/-! ### Cutting the bindings in two -/

theorem EvalM.bind_assoc {α β γ : Type} (x : EvalM α) (f : α → EvalM β) (g : β → EvalM γ) :
    (x >>= f >>= g) = x >>= fun a => f a >>= g := by
  funext m
  rcases hx : x m with ⟨r, m'⟩
  cases r with
  | ok a =>
    rw [bind_of_ok hx]
    simp only [bind, hx]
  | error e => rw [bind_of_error hx, bind_of_error (bind_of_error hx)]

/-- An even number of elements are whole bindings, and those behind them come after them. -/
theorem evalBindings_append :
    ∀ {bs : List Expr}, bs.length % 2 = 0 → ∀ bs' : List Expr,
      evalBindings opts source (bs ++ bs') =
        evalBindings opts source bs >>= fun _ => evalBindings opts source bs'
  | [], _, _ => rfl
  | [_], heven, _ => absurd heven (by simp)
  | .symbol s sym :: e :: rest, heven, bs' => by
    have hrest : rest.length % 2 = 0 := by
      simp only [List.length_cons] at heven
      omega
    rw [List.cons_append, List.cons_append, evalBindings, evalBindings, EvalM.bind_assoc]
    refine congrArg (e.eval opts source >>= ·) (funext fun v => ?_)
    rw [EvalM.bind_assoc, evalBindings_append hrest]
  | .bool _ _ :: _ :: _, _, _ | .integer _ _ :: _ :: _, _, _ | .keyword _ _ :: _ :: _, _, _
  | .list _ _ :: _ :: _, _, _ | .nil _ :: _ :: _, _, _ | .operator _ _ :: _ :: _, _, _
  | .string _ :: _ :: _, _, _ | .vector _ _ :: _ :: _, _, _ | .unlisted _ _ :: _ :: _, _, _ => rfl

/-- A `let*` whose bindings and body, one after the other, do what `y` does. -/
theorem simulates_let (hlimit : opts.limit = 0) {s o p : Span} {bs : List Expr}
    (heven : bs.length % 2 = 0) {body : Expr} {y : EnvM Value}
    (h : Simulates (evalBindings opts source bs >>= fun _ => body.eval opts source) y) :
    Simulates ((Expr.list s [.operator o .letStar, .list p bs, body]).eval opts source)
      (Reference.onCopy y) := by
  have hframe := ((simulates_reportTop opts .frameEntered).bind fun _ => h).inFrame (utf8 "let*")
  refine Simulates.guarded hlimit ?_ s
  rw [evalLet, if_neg (by omega)]
  exact hframe

/-- Whether the last of several computations works on a copy is not seen in the result. -/
theorem result_bind_onCopy {α β : Type} (x : EnvM α) (f : α → EnvM β) (env : Bindings) :
    ((x >>= fun a => Reference.onCopy (f a)) env).1 = ((x >>= f) env).1 := by
  rcases hx : x env with ⟨r, env'⟩
  cases r with
  | ok a =>
    rw [Reference.bind_of_ok hx, Reference.bind_of_ok hx]
    rfl
  | error e => rw [Reference.bind_of_error hx, Reference.bind_of_error hx]

/-- Without a depth limit, one `let*` with the bindings of `bs₁` and `bs₂` and a `let*` with those
of `bs₁` around one with those of `bs₂` give the same value or the same error, whatever the
bindings and the body do.  Both leave the stack as it was, up to the room it reserves. -/
theorem let_sequential (hlimit : opts.limit = 0) (s o p s₁ o₁ p₁ s₂ o₂ p₂ : Span)
    {bs₁ bs₂ : List Expr} (heven₁ : bs₁.length % 2 = 0) (heven₂ : bs₂.length % 2 = 0) (body : Expr)
    {m : Machine} (hs : m.stack.WellFormed) (hpos : 0 < m.stack.height) :
    let flat := Expr.list s [.operator o .letStar, .list p (bs₁ ++ bs₂), body]
    let nested := Expr.list s₁ [.operator o₁ .letStar, .list p₁ bs₁,
      .list s₂ [.operator o₂ .letStar, .list p₂ bs₂, body]]
    (flat.eval opts source m).1 = (nested.eval opts source m).1 ∧
      { (flat.eval opts source m).2.stack with capacity := m.stack.capacity } =
        { (nested.eval opts source m).2.stack with capacity := m.stack.capacity } ∧
      { (nested.eval opts source m).2.stack with capacity := m.stack.capacity } = m.stack := by
  intro flat nested
  obtain ⟨x₁, hx₁⟩ := @frameBlind_evalBindings opts source hlimit bs₁
  obtain ⟨x₂, hx₂⟩ := @frameBlind_evalBindings opts source hlimit bs₂
  obtain ⟨y, hy⟩ := @frameBlind_eval opts source hlimit body
  have heven : (bs₁ ++ bs₂).length % 2 = 0 := by
    rw [List.length_append]
    omega
  have hflat : Simulates (flat.eval opts source) (Reference.onCopy do x₁; x₂; y) := by
    refine simulates_let hlimit heven ?_
    rw [evalBindings_append heven₁, EvalM.bind_assoc]
    exact hx₁.bind fun _ => hx₂.bind fun _ => hy
  have hnested : Simulates (nested.eval opts source)
      (Reference.onCopy do x₁; Reference.onCopy do x₂; y) :=
    simulates_let hlimit heven₁
      (hx₁.bind fun _ => simulates_let hlimit heven₂ (hx₂.bind fun _ => hy))
  have hkept := @stack_eval_of_definedNames opts source nested rfl m hs hpos
  refine ⟨?_, (stack_eval_of_definedNames rfl hs hpos).trans hkept.symm, hkept⟩
  rw [(hflat m hs hpos).result_eq, (hnested m hs hpos).result_eq]
  exact (result_bind_onCopy x₁ (fun _ => do x₂; y) m.stack.visible).symm

/-- The second binding of `x` replaces the first in one frame, and hides it in two. -/
theorem let_sequential_same_name :
    let source := utf8 "(let* (x 1 x 2) x)"
    let flat := Expr.list ⟨0, 18⟩ [.operator ⟨1, 5⟩ .letStar,
      .list ⟨6, 15⟩ ([.symbol ⟨7, 8⟩ 1, .integer ⟨9, 10⟩ 1] ++
        [.symbol ⟨11, 12⟩ 1, .integer ⟨13, 14⟩ 2]), .symbol ⟨16, 17⟩ 1]
    let nested := Expr.list ⟨0, 18⟩ [.operator ⟨1, 5⟩ .letStar,
      .list ⟨6, 15⟩ [.symbol ⟨7, 8⟩ 1, .integer ⟨9, 10⟩ 1],
      .list ⟨0, 18⟩ [.operator ⟨1, 5⟩ .letStar,
        .list ⟨6, 15⟩ [.symbol ⟨11, 12⟩ 1, .integer ⟨13, 14⟩ 2], .symbol ⟨16, 17⟩ 1]]
    let m : Machine := { stack := (Stack.ofName []).withNamed (utf8 "user") }
    m.stack.WellFormed ∧ 0 < m.stack.height ∧
      (flat.eval ⟨0, true⟩ source m).1 = (nested.eval ⟨0, true⟩ source m).1 ∧
      { (flat.eval ⟨0, true⟩ source m).2.stack with capacity := m.stack.capacity } = m.stack := by
  intro source flat nested m
  have hs : m.stack.WellFormed := Stack.wellFormed_withNamed (Stack.wellFormed_ofName []) _
  have hpos : 0 < m.stack.height := Nat.succ_pos 0
  obtain ⟨hresult, hstacks, hstack⟩ := @let_sequential ⟨0, true⟩ source rfl ⟨0, 18⟩ ⟨1, 5⟩ ⟨6, 15⟩
    ⟨0, 18⟩ ⟨1, 5⟩ ⟨6, 15⟩ ⟨0, 18⟩ ⟨1, 5⟩ ⟨6, 15⟩ [.symbol ⟨7, 8⟩ 1, .integer ⟨9, 10⟩ 1]
    [.symbol ⟨11, 12⟩ 1, .integer ⟨13, 14⟩ 2] rfl rfl (.symbol ⟨16, 17⟩ 1) m hs hpos
  exact ⟨hs, hpos, hresult, hstacks.trans hstack⟩

end SpanLisp
