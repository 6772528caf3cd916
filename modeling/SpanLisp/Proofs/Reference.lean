import SpanLisp.Eval
import SpanLisp.Proofs.Frames
import SpanLisp.Proofs.Parsing

/-!
# Evaluation without frames

`Reference.eval` evaluates an expression against one finite map of bindings.  It knows no frames:
`def!` updates the map, and `let*` works on a private copy of it that is thrown away afterwards.

`Simulates x y` says that the computation `x` on a machine and the computation `y` on a map end the
same way from every well-formed stack, and that the bindings seen afterwards are those of the map.
Simulation is kept by the ways in which the evaluator combines computations, so evaluation simulates
the reference interpreter (`simulates_eval`).
-/

namespace SpanLisp

namespace Reference

/-! ### The interpreter -/

/-- A computation on a map of bindings that may fail, keeping its changes. -/
def EnvM (α : Type) : Type := Bindings → Except Fault α × Bindings

instance : Monad EnvM where
  pure a env := (.ok a, env)
  bind x f env :=
    match x env with
    | (.ok a, env') => f a env'
    | (.error e, env') => (.error e, env')

theorem bind_of_ok {α β : Type} {x : EnvM α} {f : α → EnvM β} {env env' : Bindings} {a : α}
    (h : x env = (.ok a, env')) : (x >>= f) env = f a env' := by
  simp only [bind, h]

theorem bind_of_error {α β : Type} {x : EnvM α} {f : α → EnvM β} {env env' : Bindings} {e : Fault}
    (h : x env = (.error e, env')) : (x >>= f) env = (.error e, env') := by
  simp only [bind, h]

/-- Ends the computation. -/
def throw {α : Type} (f : Fault) : EnvM α := fun env => (.error f, env)

/-- Ends the computation with an evaluation error. -/
def fail {α : Type} (kind : EvalError.Kind) (span : Span) : EnvM α := throw (.failed ⟨kind, span⟩)

/-- Goes on with a result unless it is a defect. -/
def ofExcept {α : Type} : Except Defect α → EnvM α
  | .ok a => pure a
  | .error d => throw (.defect d)

/-- The binding of a symbol. -/
def find (sym : Symbol) : EnvM (Option Value) := fun env => (.ok env[sym]?, env)

/-- Binds a symbol. -/
def assign (sym : Symbol) (v : Value) : EnvM Unit := fun env => (.ok (), env.insert sym v)

/-- Runs a computation on a copy, which is thrown away. -/
def onCopy {α : Type} (x : EnvM α) : EnvM α := fun env => ((x env).1, env)

/-- Applies the function at a place of the table to its arguments. -/
def call (span : Span) (index : Int) (args : List Value) : EnvM Value :=
  match Builtin.get? index with
  | none => throw (.defect .outOfBounds)
  | some f =>
    match f.apply args with
    | .ok v => pure v
    | .error _ => fail .unsupportedOperation span

mutual

/-- The value of an expression of the given source. -/
def eval (source : Bytes) : Expr → EnvM Value
  | .bool _ b => pure (.bool b)
  | .integer _ n => pure (.integer n)
  | .nil _ => pure .nil
  | .string span => do return .string (← ofExcept (Expr.stringText source span))
  | .keyword _ sym => pure (.keyword sym)
  | .symbol span sym => do
    match ← find sym with
    | some v => return v
    | none => fail .undefinedSymbol span
  | .vector _ elems => do return .vector (← evalAll source elems)
  | .list span [] => fail .emptyList span
  | .list span (.operator _ .define :: args) => evalDefine source span args
  | .list span (.operator _ .cond :: args) => evalCond source span args
  | .list span (.operator _ .letStar :: args) => evalLet source span args
  | .list _ (.operator _ (.unlisted code) :: _) =>
    throw (.defect (.unknownOperator (.unlisted code)))
  | .list span (.symbol headSpan sym :: args) => do
    match ← find sym with
    | none => fail .undefinedSymbol headSpan
    | some (.function index) => call span index (← evalAll source args)
    | some _ => fail .expectedFunction headSpan
  | .list _ (head :: _) => fail .expectedSymbol head.span
  | .operator span op => throw (.defect (.misplacedOperator op span))
  | .unlisted _ code => throw (.defect (.unknownKind code))

/-- The values of expressions from left to right, up to the first failure. -/
def evalAll (source : Bytes) : List Expr → EnvM (List Value)
  | [] => pure []
  | e :: es => do
    let v ← eval source e
    return v :: (← evalAll source es)

/-- `(def! name expr)` binds the name to the value. -/
def evalDefine (source : Bytes) (span : Span) : List Expr → EnvM Value
  | [.symbol _ sym, e] => do
    let v ← eval source e
    assign sym v
    return v
  | [name, _] => fail .expectedSymbol name.span
  | _ => fail .unsupportedOperation span

/-- `(if test then else)` evaluates only the chosen branch. -/
def evalCond (source : Bytes) (span : Span) : List Expr → EnvM Value
  | [test, yes, no] => do
    let v ← eval source test
    if v.isTruthy then eval source yes else eval source no
  | _ => fail .unsupportedOperation span

/-- `(let* (name expr ...) body)` binds the names and evaluates the body on a copy. -/
def evalLet (source : Bytes) (span : Span) : List Expr → EnvM Value
  | [.list bindingsSpan elems, body] | [.vector bindingsSpan elems, body] =>
    if elems.length % 2 ≠ 0 then fail .unsupportedOperation bindingsSpan
    else onCopy do
      evalBindings source elems
      eval source body
  | [bindings, _] => fail .unsupportedOperation bindings.span
  | _ => fail .unsupportedOperation span

/-- The bindings of a `let*`, one after the other. -/
def evalBindings (source : Bytes) : List Expr → EnvM Unit
  | .symbol _ sym :: e :: rest => do
    let v ← eval source e
    assign sym v
    evalBindings source rest
  | name :: _ :: _ => fail .expectedSymbol name.span
  | _ => pure ()

end

end Reference

open Reference (EnvM)

/-! ### Simulation -/

/-- A run on a machine and a run on a map of bindings end the same way.  The bindings seen on the
machine are those of the map, and nothing but the top frame has changed. -/
structure Agrees {α : Type} (m : Machine) (r : Except Fault α × Machine)
    (r' : Except Fault α × Bindings) : Prop where
  /-- The value or the fault is the same. -/
  result_eq : r.1 = r'.1
  /-- The bindings seen are those of the map. -/
  visible_eq : r.2.stack.visible = r'.2
  /-- At most the bindings of the top frame have changed. -/
  change : m.stack.TopChange r.2.stack
  /-- No evaluation is left in progress. -/
  depth_eq : r.2.depth = m.depth

/-- From every machine with a well-formed stack, the first computation does what the second does to
the bindings seen. -/
def Simulates {α : Type} (x : EvalM α) (y : EnvM α) : Prop :=
  ∀ m : Machine, m.stack.WellFormed → 0 < m.stack.height → Agrees m (x m) (y m.stack.visible)

variable {α β : Type}

theorem simulates_result (r : Except Fault α) :
    Simulates (fun m => (r, m)) (fun env => (r, env)) :=
  fun m _ _ => ⟨rfl, rfl, .refl m.stack, rfl⟩

theorem simulates_pure (a : α) : Simulates (pure a) (pure a) := simulates_result (.ok a)

theorem simulates_throw (f : Fault) :
    Simulates (EvalM.throw f : EvalM α) (Reference.throw f) := simulates_result (.error f)

theorem simulates_fail (kind : EvalError.Kind) (span : Span) :
    Simulates (EvalM.fail kind span : EvalM α) (Reference.fail kind span) := simulates_throw _

theorem simulates_ofExcept (r : Except Defect α) :
    Simulates (EvalM.ofExcept r) (Reference.ofExcept r) := by
  cases r with
  | ok a => exact simulates_pure a
  | error d => exact simulates_throw _

theorem Simulates.bind {x : EvalM α} {y : EnvM α} {f : α → EvalM β} {g : α → EnvM β}
    (hx : Simulates x y) (hf : ∀ a, Simulates (f a) (g a)) : Simulates (x >>= f) (y >>= g) := by
  intro m hs hpos
  have h := hx m hs hpos
  rcases hxm : x m with ⟨r, m₁⟩
  rcases hym : y m.stack.visible with ⟨r', env⟩
  rw [hxm, hym] at h
  obtain ⟨rfl, rfl, hchange, hdepth⟩ := h
  cases r with
  | error e =>
    rw [EvalM.bind_of_error hxm, Reference.bind_of_error hym]
    exact ⟨rfl, rfl, hchange, hdepth⟩
  | ok a =>
    rw [EvalM.bind_of_ok hxm, Reference.bind_of_ok hym]
    obtain ⟨hres, hvis, hchange', hdepth'⟩ :=
      hf a m₁ (hchange.wellFormed hs) (by rw [hchange.height_eq]; exact hpos)
    exact ⟨hres, hvis, hchange.trans hchange', hdepth'.trans hdepth⟩

/-- What is reported has no influence. -/
theorem simulates_report (opts : EvalOptions) (e : Event) :
    Simulates (EvalM.report opts e) (pure ()) := by
  intro m _ _
  unfold EvalM.report
  split <;> exact ⟨rfl, rfl, .refl m.stack, rfl⟩

theorem simulates_reportTop (opts : EvalOptions) (e : Int → Event) :
    Simulates (EvalM.topFrame >>= fun frame => EvalM.report opts (e frame)) (pure ()) :=
  fun m hs hpos => simulates_report opts (e m.stack.top) m hs hpos

theorem simulates_lookup (sym : Symbol) : Simulates (EvalM.lookup sym) (Reference.find sym) := by
  intro m hs _
  obtain ⟨r, hr, hvisible⟩ := Stack.lookup_of_wellFormed hs sym
  unfold EvalM.lookup Reference.find
  rw [hr, ← hvisible]
  exact ⟨rfl, rfl, .refl m.stack, rfl⟩

theorem simulates_bindSymbol (sym : Symbol) (v : Value) :
    Simulates (EvalM.bindSymbol sym v) (Reference.assign sym v) := by
  intro m hs hpos
  obtain ⟨s', hbind, hchange, hvisible⟩ := Stack.visible_bind hs hpos sym v
  unfold EvalM.bindSymbol Reference.assign
  rw [EvalM.onStack_eq hbind]
  exact ⟨rfl, hvisible, hchange, rfl⟩

/-- Without a limit, counting evaluations has no influence. -/
theorem Simulates.guarded {opts : EvalOptions} (hlimit : opts.limit = 0) {x : EvalM α} {y : EnvM α}
    (h : Simulates x y) (span : Span) : Simulates (EvalM.guarded opts span x) y := by
  intro m hs hpos
  obtain ⟨hres, hvis, hchange, hdepth⟩ := h { m with depth := m.depth + 1 } hs hpos
  unfold EvalM.guarded
  simp only [hlimit, Nat.lt_irrefl, false_and, if_false]
  refine ⟨hres, hvis, hchange, ?_⟩
  simp only [hdepth, Nat.add_sub_cancel]

/-- A frame of its own is a copy that is thrown away. -/
theorem Simulates.inFrame {x : EvalM α} {y : EnvM α} (h : Simulates x y) (name : Bytes) :
    Simulates (EvalM.inFrame name x) (Reference.onCopy y) := by
  intro m hs hpos
  -- What is visible at the end of `x` goes with its frame.
  obtain ⟨hres, -, hchange, hdepth⟩ := h { m with stack := m.stack.withNamed name }
    (Stack.wellFormed_withNamed hs name) (Nat.succ_pos _)
  obtain ⟨-, hframes, hchange'⟩ := Stack.popScope_withNamed hs.size_eq hchange
  rw [Stack.visible_withNamed hs] at hres
  rw [EvalM.inFrame_of_change hs.size_eq hchange]
  unfold Reference.onCopy
  exact ⟨hres, Stack.visible_congr hs hchange'.height_eq hframes, hchange', hdepth⟩

theorem simulates_define (opts : EvalOptions) {source : Bytes} {span : Span}
    (hspan : span.Within source.length) (sym : Symbol) (v : Value) :
    Simulates (define opts source span sym v) (do Reference.assign sym v; return v) := by
  unfold define
  refine (simulates_bindSymbol sym v).bind fun _ => ?_
  cases opts.trace with
  | false => exact simulates_pure v
  | true =>
    rw [slice_of_within hspan]
    exact (simulates_reportTop opts _).bind fun _ => simulates_pure v

theorem simulates_call (opts : EvalOptions) (span : Span) (index : Int) (args : List Value) :
    Simulates (call opts span index args) (Reference.call span index args) := by
  unfold call Reference.call
  cases Builtin.get? index with
  | none => exact simulates_throw _
  | some f =>
    simp only
    cases f.apply args with
    | ok v => exact simulates_pure v
    | error why => exact (simulates_report opts _).bind fun _ => simulates_fail _ _

/-! ### Evaluation -/

variable {opts : EvalOptions} {source : Bytes}

mutual

theorem simulates_eval (hlimit : opts.limit = 0) :
    ∀ {e : Expr}, (∀ n ∈ e.nodes, n.span.Within source.length) →
      Simulates (e.eval opts source) (Reference.eval source e)
  | .bool span b, _ => (simulates_pure (Value.bool b)).guarded hlimit span
  | .integer span n, _ => (simulates_pure (Value.integer n)).guarded hlimit span
  | .nil span, _ => (simulates_pure Value.nil).guarded hlimit span
  | .keyword span sym, _ => (simulates_pure (Value.keyword sym)).guarded hlimit span
  | .string span, _ =>
    ((simulates_ofExcept _).bind fun text => simulates_pure (Value.string text)).guarded hlimit span
  | .symbol span sym, _ => by
    refine Simulates.guarded hlimit ((simulates_lookup sym).bind fun found => ?_) span
    cases found with
    | none => exact simulates_fail _ _
    | some v => exact simulates_pure v
  | .vector span elems, h =>
    ((simulates_evalAll hlimit fun n hn => h n (List.mem_cons_of_mem _ hn)).bind fun vs =>
      simulates_pure (Value.vector vs)).guarded hlimit span
  | .list span [], _ => (simulates_fail .emptyList span).guarded hlimit span
  | .list span (.operator s .define :: args), h =>
    (simulates_evalDefine hlimit span fun n hn => h n
      (List.mem_cons_of_mem _ (List.mem_cons_of_mem _ hn))).guarded hlimit span
  | .list span (.operator s .cond :: args), h =>
    (simulates_evalCond hlimit span fun n hn => h n
      (List.mem_cons_of_mem _ (List.mem_cons_of_mem _ hn))).guarded hlimit span
  | .list span (.operator s .letStar :: args), h =>
    (simulates_evalLet hlimit span fun n hn => h n
      (List.mem_cons_of_mem _ (List.mem_cons_of_mem _ hn))).guarded hlimit span
  | .list span (.operator s (.unlisted code) :: _), _ =>
    (simulates_throw _).guarded hlimit span
  | .list span (.symbol headSpan sym :: args), h => by
    refine Simulates.guarded hlimit ((simulates_lookup sym).bind fun found => ?_) span
    have hargs := simulates_evalAll hlimit fun n hn => h n
      (List.mem_cons_of_mem _ (List.mem_cons_of_mem _ hn))
    cases found with
    | none => exact simulates_fail _ _
    | some v =>
      cases v with
      | function index => exact hargs.bind fun vs => simulates_call opts span index vs
      | nil | bool | integer | keyword | string | vector | unlisted => exact simulates_fail _ _
  | .list span (.bool _ _ :: _), _ | .list span (.integer _ _ :: _), _
  | .list span (.keyword _ _ :: _), _ | .list span (.list _ _ :: _), _
  | .list span (.nil _ :: _), _ | .list span (.string _ :: _), _
  | .list span (.vector _ _ :: _), _ | .list span (.unlisted _ _ :: _), _ =>
    (simulates_fail .expectedSymbol _).guarded hlimit span
  | .operator span op, _ => (simulates_throw _).guarded hlimit span
  | .unlisted span code, _ => (simulates_throw _).guarded hlimit span

theorem simulates_evalAll (hlimit : opts.limit = 0) :
    ∀ {es : List Expr}, (∀ n ∈ Expr.nodesAll es, n.span.Within source.length) →
      Simulates (evalAll opts source es) (Reference.evalAll source es)
  | [], _ => simulates_pure []
  | _ :: _, h =>
    (simulates_eval hlimit fun n hn => h n (List.mem_append_left _ hn)).bind fun v =>
      (simulates_evalAll hlimit fun n hn => h n (List.mem_append_right _ hn)).bind fun vs =>
        simulates_pure (v :: vs)

theorem simulates_evalDefine (hlimit : opts.limit = 0) (span : Span) :
    ∀ {args : List Expr}, (∀ n ∈ Expr.nodesAll args, n.span.Within source.length) →
      Simulates (evalDefine opts source span args) (Reference.evalDefine source span args)
  | [], _ => simulates_fail _ _
  | [x], _ | x :: _ :: _ :: _, _ => by cases x <;> exact simulates_fail _ _
  | [.symbol s sym, e], h =>
    (simulates_eval hlimit fun n hn => h n (by simp [Expr.nodesAll, hn])).bind fun v =>
      simulates_define opts (h (.symbol s sym) (by simp [Expr.nodesAll, Expr.nodes])) sym v
  | [.bool _ _, _], _ | [.integer _ _, _], _ | [.keyword _ _, _], _ | [.list _ _, _], _
  | [.nil _, _], _ | [.operator _ _, _], _ | [.string _, _], _ | [.vector _ _, _], _
  | [.unlisted _ _, _], _ => simulates_fail _ _

theorem simulates_evalCond (hlimit : opts.limit = 0) (span : Span) :
    ∀ {args : List Expr}, (∀ n ∈ Expr.nodesAll args, n.span.Within source.length) →
      Simulates (evalCond opts source span args) (Reference.evalCond source span args)
  | [], _ | [_], _ | [_, _], _ | _ :: _ :: _ :: _ :: _, _ => simulates_fail _ _
  | [test, yes, no], h => by
    have hyes := simulates_eval hlimit (e := yes) fun n hn => h n (by simp [Expr.nodesAll, hn])
    have hno := simulates_eval hlimit (e := no) fun n hn => h n (by simp [Expr.nodesAll, hn])
    refine (simulates_eval hlimit fun n hn => h n (by simp [Expr.nodesAll, hn])).bind fun v => ?_
    cases v.isTruthy with
    | true => exact hyes
    | false => exact hno

theorem simulates_evalLet (hlimit : opts.limit = 0) (span : Span) :
    ∀ {args : List Expr}, (∀ n ∈ Expr.nodesAll args, n.span.Within source.length) →
      Simulates (evalLet opts source span args) (Reference.evalLet source span args)
  | [], _ => simulates_fail _ _
  | [x], _ | x :: _ :: _ :: _, _ => by cases x <;> exact simulates_fail _ _
  | [.list s elems, body], h | [.vector s elems, body], h => by
    have helems :
        Simulates (evalBindings opts source elems) (Reference.evalBindings source elems) :=
      simulates_evalBindings hlimit fun n hn => h n (by simp [Expr.nodesAll, Expr.nodes, hn])
    have hbody := simulates_eval hlimit (e := body) fun n hn => h n (by simp [Expr.nodesAll, hn])
    rw [evalLet, Reference.evalLet]
    by_cases hodd : elems.length % 2 ≠ 0
    · rw [if_pos hodd, if_pos hodd]
      exact simulates_fail _ _
    · rw [if_neg hodd, if_neg hodd]
      exact ((simulates_reportTop opts _).bind fun _ => helems.bind fun _ => hbody).inFrame _
  | [.bool _ _, _], _ | [.integer _ _, _], _ | [.keyword _ _, _], _ | [.symbol _ _, _], _
  | [.nil _, _], _ | [.operator _ _, _], _ | [.string _, _], _ | [.unlisted _ _, _], _ =>
    simulates_fail _ _

theorem simulates_evalBindings (hlimit : opts.limit = 0) :
    ∀ {es : List Expr}, (∀ n ∈ Expr.nodesAll es, n.span.Within source.length) →
      Simulates (evalBindings opts source es) (Reference.evalBindings source es)
  | [], _ => simulates_pure ()
  | [x], _ => by cases x <;> exact simulates_pure ()
  | .symbol s sym :: e :: rest, h =>
    (simulates_eval hlimit fun n hn => h n (by simp [Expr.nodesAll, hn])).bind fun v =>
      (simulates_bindSymbol sym v).bind fun _ =>
        simulates_evalBindings hlimit fun n hn => h n (by simp [Expr.nodesAll, hn])
  | .bool _ _ :: _ :: _, _ | .integer _ _ :: _ :: _, _ | .keyword _ _ :: _ :: _, _
  | .list _ _ :: _ :: _, _ | .nil _ :: _ :: _, _ | .operator _ _ :: _ :: _, _
  | .string _ :: _ :: _, _ | .vector _ _ :: _ :: _, _ | .unlisted _ _ :: _ :: _, _ =>
    simulates_fail _ _

end

/-- Without a depth limit, evaluating an expression on a well-formed stack gives the value or the
error that the reference interpreter gives on the bindings seen from the top.  Afterwards the
bindings seen are those that the reference interpreter leaves, and the stack has the same frames as
before but for the bindings of the top one. -/
theorem eval_refines_reference {opts : EvalOptions} (hlimit : opts.limit = 0) {source : Bytes}
    {e : Expr} (he : e.ReadFrom source) {m : Machine} (hs : m.stack.WellFormed)
    (hpos : 0 < m.stack.height) :
    (e.eval opts source m).1 = (Reference.eval source e m.stack.visible).1 ∧
      (e.eval opts source m).2.stack.visible = (Reference.eval source e m.stack.visible).2 ∧
      m.stack.TopChange (e.eval opts source m).2.stack ∧
      (e.eval opts source m).2.stack.WellFormed ∧ (e.eval opts source m).2.depth = m.depth := by
  obtain ⟨hresult, hvisible, hchange, hdepth⟩ := simulates_eval hlimit he.within m hs hpos
  exact ⟨hresult, hvisible, hchange, hchange.wellFormed hs, hdepth⟩

/-- A definition inside a `let*`, on a stack of two frames. -/
theorem eval_refines_reference_let :
    let source := utf8 "(let* [] (def! x 1))"
    let e := Expr.list ⟨0, 20⟩ [.operator ⟨1, 5⟩ .letStar, .vector ⟨6, 8⟩ [],
      .list ⟨9, 19⟩ [.operator ⟨10, 14⟩ .define, .symbol ⟨15, 16⟩ 2, .integer ⟨17, 18⟩ 1]]
    let m : Machine := { stack := ((Stack.ofName []).withNamed []).withNamed (utf8 "user") }
    e.ReadFrom source ∧ m.stack.WellFormed ∧ 0 < m.stack.height ∧
      (e.eval { limit := 0 } source m).1 = (Reference.eval source e m.stack.visible).1 ∧
      (e.eval { limit := 0 } source m).2.stack.visible =
        (Reference.eval source e m.stack.visible).2 := by
  have he : Expr.ReadFrom (utf8 "(let* [] (def! x 1))")
      (.list ⟨0, 20⟩ [.operator ⟨1, 5⟩ .letStar, .vector ⟨6, 8⟩ [],
        .list ⟨9, 19⟩ [.operator ⟨10, 14⟩ .define, .symbol ⟨15, 16⟩ 2, .integer ⟨17, 18⟩ 1]]) := by
    refine ⟨0, {}, .inl ?_⟩
    unfold parseLine Parser.parse
    rw [ByteLexer.tokens_eq_scan]
    rfl
  intro source e m
  have hs : m.stack.WellFormed :=
    Stack.wellFormed_withNamed (Stack.wellFormed_withNamed (Stack.wellFormed_ofName _) _) _
  have hpos : 0 < m.stack.height := Nat.succ_pos _
  have hlimit : ({ limit := 0 } : EvalOptions).limit = 0 := rfl
  obtain ⟨hresult, hvisible, -⟩ := eval_refines_reference hlimit he hs hpos
  exact ⟨he, hs, hpos, hresult, hvisible⟩

end SpanLisp
