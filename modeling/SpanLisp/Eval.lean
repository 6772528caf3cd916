import SpanLisp.Expr.Printer
import SpanLisp.Fault
import SpanLisp.Stack
import SpanLisp.Event

/-!
# Evaluation

`Expr.eval` evaluates a syntax tree against a stack of scopes.  A computation (`EvalM`) changes a
`Machine`, which holds the stack, the number of evaluations in progress and the events reported,
and keeps these changes also when it fails.  `guarded` counts an evaluation and refuses it beyond
the limit; `inFrame` runs a computation in a frame of its own.
-/

namespace SpanLisp

/-- What an evaluation works on. -/
structure Machine where
  /-- The scopes. -/
  stack : Stack
  /-- The number of evaluations in progress. -/
  depth : Nat := 0
  /-- The events reported so far, last first. -/
  events : List Event := []

/-- What stays the same during an evaluation. -/
structure EvalOptions where
  /-- The largest number of evaluations in progress; 0 means no bound. -/
  limit : Nat := 10000
  /-- Are definitions, frames and refused calls reported? -/
  trace : Bool := false
  deriving DecidableEq, Repr

/-- A computation on a machine that may fail, keeping its changes. -/
def EvalM (α : Type) : Type := Machine → Except Fault α × Machine

namespace EvalM

instance : Monad EvalM where
  pure a m := (.ok a, m)
  bind x f m :=
    match x m with
    | (.ok a, m') => f a m'
    | (.error e, m') => (.error e, m')

theorem bind_of_ok {α β : Type} {x : EvalM α} {f : α → EvalM β} {m m' : Machine} {a : α}
    (h : x m = (.ok a, m')) : (x >>= f) m = f a m' := by
  simp only [bind, h]

theorem bind_of_error {α β : Type} {x : EvalM α} {f : α → EvalM β} {m m' : Machine} {e : Fault}
    (h : x m = (.error e, m')) : (x >>= f) m = (.error e, m') := by
  simp only [bind, h]

/-- Ends the computation. -/
def throw {α : Type} (f : Fault) : EvalM α := fun m => (.error f, m)

/-- Ends the computation with an evaluation error. -/
def fail {α : Type} (kind : EvalError.Kind) (span : Span) : EvalM α := throw (.failed ⟨kind, span⟩)

/-- Goes on with a result unless it is a defect. -/
def ofExcept {α : Type} : Except Defect α → EvalM α
  | .ok a => pure a
  | .error d => throw (.defect d)

/-- Reports an event, if events are wanted. -/
def report (opts : EvalOptions) (e : Event) : EvalM Unit :=
  fun m => (.ok (), if opts.trace then { m with events := e :: m.events } else m)

/-- The place of the top frame. -/
def topFrame : EvalM Int := fun m => (.ok m.stack.top, m)

/-- The binding of a symbol. -/
def lookup (sym : Symbol) : EvalM (Option Value) := fun m =>
  match m.stack.lookup sym with
  | .ok r => (.ok (r.map (·.1)), m)
  | .error d => (.error (.defect d), m)

/-- Changes the stack; a failure is a defect. -/
def onStack {α : Type} (x : StackM Defect α) : EvalM α := fun m =>
  ((x m.stack).1.mapError .defect, { m with stack := (x m.stack).2 })

/-- Binds a symbol in the top frame. -/
def bindSymbol (sym : Symbol) (v : Value) : EvalM Unit := onStack (Stack.bind sym v)

/-- Counts an evaluation while it lasts and refuses it beyond the limit. -/
def guarded {α : Type} (opts : EvalOptions) (span : Span) (x : EvalM α) : EvalM α := fun m =>
  let inner := { m with depth := m.depth + 1 }
  let r := if 0 < opts.limit ∧ opts.limit < inner.depth then fail .depthExceeded span inner
    else x inner
  (r.1, { r.2 with depth := r.2.depth - 1 })

/-- Runs a computation and, whatever comes of it, another one, whose failure counts. -/
def thenAlways {α : Type} (x : EvalM α) (y : EvalM Unit) : EvalM α := fun m =>
  let r := x m
  match y r.2 with
  | (.ok (), m') => (r.1, m')
  | (.error f, m') => (.error f, m')

theorem thenAlways_of_ok {α : Type} {x : EvalM α} {y : EvalM Unit} {m m' : Machine}
    (h : y (x m).2 = (.ok (), m')) : thenAlways x y m = ((x m).1, m') := by
  simp only [thenAlways, h]

theorem thenAlways_of_error {α : Type} {x : EvalM α} {y : EvalM Unit} {m m' : Machine} {f : Fault}
    (h : y (x m).2 = (.error f, m')) : thenAlways x y m = (.error f, m') := by
  simp only [thenAlways, h]

/-- Runs a computation in a new frame, which is taken away afterwards in any case.  A frame that
cannot be put on top or taken away is a defect. -/
def inFrame {α : Type} (name : Bytes) (x : EvalM α) : EvalM α := do
  onStack (Stack.pushNamed name)
  thenAlways x (onStack (StackM.mapError Stack.Failure.toDefect Stack.popScope))

end EvalM

open EvalM

/-- The name of the kind of a value. -/
def Value.kindText (v : Value) : Bytes := (Value.kindName v.kindCode).toOption.getD []

/-- Binds the name that stands at `span` and reports the definition. -/
def define (opts : EvalOptions) (source : Bytes) (span : Span) (sym : Symbol) (v : Value) :
    EvalM Value := do
  bindSymbol sym v
  if opts.trace then
    let name ← ofExcept (slice source span)
    report opts (.defined name v.kindText (← topFrame))
  return v

/-- Applies the function at a place of the table to its arguments. -/
def call (opts : EvalOptions) (span : Span) (index : Int) (args : List Value) : EvalM Value :=
  match Builtin.get? index with
  | none => throw (.defect .outOfBounds)
  | some f =>
    match f.apply args with
    | .ok v => pure v
    | .error why => do
      report opts (.callRefused f.name span why)
      fail .unsupportedOperation span

mutual

/-- Evaluates an expression of the given source. -/
def Expr.eval (opts : EvalOptions) (source : Bytes) : Expr → EvalM Value
  | .bool span b => guarded opts span (pure (.bool b))
  | .integer span n => guarded opts span (pure (.integer n))
  | .nil span => guarded opts span (pure .nil)
  | .string span => guarded opts span do
    return .string (← ofExcept (Expr.stringText source span))
  | .keyword span sym => guarded opts span (pure (.keyword sym))
  | .symbol span sym => guarded opts span do
    match ← lookup sym with
    | some v => return v
    | none => fail .undefinedSymbol span
  | .vector span elems => guarded opts span do
    return .vector (← evalAll opts source elems)
  | .list span [] => guarded opts span (fail .emptyList span)
  | .list span (.operator _ .define :: args) => guarded opts span (evalDefine opts source span args)
  | .list span (.operator _ .cond :: args) => guarded opts span (evalCond opts source span args)
  | .list span (.operator _ .letStar :: args) => guarded opts span (evalLet opts source span args)
  | .list span (.operator _ (.unlisted code) :: _) =>
    guarded opts span (throw (.defect (.unknownOperator (.unlisted code))))
  | .list span (.symbol headSpan sym :: args) => guarded opts span do
    match ← lookup sym with
    | none => fail .undefinedSymbol headSpan
    | some (.function index) => call opts span index (← evalAll opts source args)
    | some _ => fail .expectedFunction headSpan
  | .list span (head :: _) => guarded opts span (fail .expectedSymbol head.span)
  | .operator span op => guarded opts span (throw (.defect (.misplacedOperator op span)))
  | .unlisted span code => guarded opts span (throw (.defect (.unknownKind code)))

/-- Evaluates expressions from left to right, up to the first failure. -/
def evalAll (opts : EvalOptions) (source : Bytes) : List Expr → EvalM (List Value)
  | [] => pure []
  | e :: es => do
    let v ← e.eval opts source
    return v :: (← evalAll opts source es)

/-- Evaluates `(def! name expr)`: binds the name in the top frame. -/
def evalDefine (opts : EvalOptions) (source : Bytes) (span : Span) : List Expr → EvalM Value
  | [.symbol nameSpan sym, e] => do
    let v ← e.eval opts source
    define opts source nameSpan sym v
  | [name, _] => fail .expectedSymbol name.span
  | _ => fail .unsupportedOperation span

/-- Evaluates `(if test then else)`: only the chosen branch. -/
def evalCond (opts : EvalOptions) (source : Bytes) (span : Span) : List Expr → EvalM Value
  | [test, yes, no] => do
    let v ← test.eval opts source
    if v.isTruthy then yes.eval opts source else no.eval opts source
  | _ => fail .unsupportedOperation span

/-- Evaluates `(let* (name expr ...) body)`: the names are bound one after the other in a frame of
its own, where the body runs. -/
def evalLet (opts : EvalOptions) (source : Bytes) (span : Span) : List Expr → EvalM Value
  | [.list bindingsSpan elems, body] | [.vector bindingsSpan elems, body] =>
    if elems.length % 2 ≠ 0 then fail .unsupportedOperation bindingsSpan
    else inFrame (utf8 "let*") do
      report opts (.frameEntered (← topFrame))
      evalBindings opts source elems
      body.eval opts source
  | [bindings, _] => fail .unsupportedOperation bindings.span
  | _ => fail .unsupportedOperation span

/-- Evaluates the bindings of a `let*`, each of which sees the ones before it. -/
def evalBindings (opts : EvalOptions) (source : Bytes) : List Expr → EvalM Unit
  | .symbol _ sym :: e :: rest => do
    let v ← e.eval opts source
    bindSymbol sym v
    evalBindings opts source rest
  | name :: _ :: _ => fail .expectedSymbol name.span
  | _ => pure ()

end

end SpanLisp
