import SpanLisp.Proofs.SequentialLet
import SpanLisp.Proofs.Sessions

/-!
# Integer arithmetic

An `Arith` is an expression built from integer literals by calls of the four arithmetic functions
with two arguments.  `Arith.outcome` is what it comes to over the integers, where every sum,
difference and product is reduced to 64 bits and every quotient is rounded toward zero: its value,
or the place of the call that has none.  Evaluation comes to the same (`computes_eval`).  The call
without a value is the first one in the order in which calls are made, operands before the call and
the left one before the right (`find?_calls`).  Without division it is enough to reduce once at the
end (`outcome_of_no_division`).
-/

namespace SpanLisp

/-! ### The functions on integers -/

/-- The arithmetic functions. -/
inductive ArithOp where
  /-- The sum. -/
  | add
  /-- The difference. -/
  | sub
  /-- The product. -/
  | mul
  /-- The quotient. -/
  | div
  deriving DecidableEq, Repr

namespace ArithOp

/-- The name of a function. -/
def name : ArithOp → Bytes
  | add => utf8 "+"
  | sub => utf8 "-"
  | mul => utf8 "*"
  | div => utf8 "/"

/-- The function on integers of any size; a quotient is rounded toward zero. -/
def exact : ArithOp → Int → Int → Int
  | add, a, b => a + b
  | sub, a, b => a - b
  | mul, a, b => a * b
  | div, a, b => a.tdiv b

/-- The integer from -2^63 to 2^63 - 1 that differs from `n` by a multiple of 2^64. -/
def wrap (n : Int) : Int := n.bmod 18446744073709551616

/-- The function on 64 bit integers: all results but quotients are reduced. -/
def apply : ArithOp → Int → Int → Int
  | add, a, b => wrap (a + b)
  | sub, a, b => wrap (a - b)
  | mul, a, b => wrap (a * b)
  | div, a, b => a.tdiv b

/-- The integers have no 64 bit quotient: the divisor is 0, or -2^63 is divided by -1. -/
def NoQuotient (a b : Int) : Prop := b = 0 ∨ a = -9223372036854775808 ∧ b = -1

instance (a b : Int) : Decidable (NoQuotient a b) :=
  inferInstanceAs (Decidable (b = 0 ∨ a = -9223372036854775808 ∧ b = -1))

/-- The function gives no result for the operands. -/
def Undefined (op : ArithOp) (a b : Int) : Prop := op = .div ∧ NoQuotient a b

instance (op : ArithOp) (a b : Int) : Decidable (op.Undefined a b) :=
  inferInstanceAs (Decidable (op = .div ∧ NoQuotient a b))

theorem not_undefined_of_ne {op : ArithOp} (h : op ≠ .div) (a b : Int) : ¬ op.Undefined a b :=
  fun hundefined => h hundefined.1

/-- Reducing the operands first makes no difference to a result that is reduced. -/
theorem apply_wrap {op : ArithOp} (h : op ≠ .div) (a b : Int) :
    op.apply (wrap a) (wrap b) = wrap (op.exact a b) := by
  cases op with
  | add => simp only [apply, wrap, exact, Int.bmod_add_bmod, Int.add_bmod_bmod]
  | sub => simp only [apply, wrap, exact, Int.bmod_sub_bmod, Int.sub_bmod_bmod]
  | mul => simp only [apply, wrap, exact, Int.bmod_mul_bmod, Int.mul_bmod_bmod]
  | div => exact absurd rfl h

theorem wrap_toInt (n : Int64) : wrap n.toInt = n.toInt := n.toInt_bmod

/-! ### The functions of the language -/

theorem noQuotient_iff {a b : Int64} :
    NoQuotient a.toInt b.toInt ↔ b = 0 ∨ a = Int64.minValue ∧ b = -1 := by
  rw [← Int64.toInt_inj, ← Int64.toInt_inj, ← Int64.toInt_inj]
  rfl

theorem divide_of_noQuotient {a b : Int64} (h : NoQuotient a.toInt b.toInt) :
    ∃ why, Builtin.divide a b = .error why := by
  unfold Builtin.divide
  by_cases hzero : b = 0
  · exact ⟨_, if_pos hzero⟩
  · have hover := (noQuotient_iff.1 h).resolve_left hzero
    exact ⟨_, by rw [if_neg hzero, if_pos hover]⟩

theorem divide_of_quotient {a b : Int64} (h : ¬ NoQuotient a.toInt b.toInt) :
    Builtin.divide a b = .ok (a / b) ∧ (a / b).toInt = a.toInt.tdiv b.toInt := by
  rw [noQuotient_iff, not_or] at h
  obtain ⟨hzero, hover⟩ := h
  refine ⟨by rw [Builtin.divide, if_neg hzero, if_neg hover], ?_⟩
  by_cases ha : a = Int64.minValue
  · exact Int64.toInt_div_of_ne_right a b fun hb => hover ⟨ha, hb⟩
  · exact Int64.toInt_div_of_ne_left a b ha

/-- A function of the language refuses two integers exactly if they have no quotient, and otherwise
gives what the function on integers gives. -/
theorem arithmetic_cases (op : ArithOp) (a b : Int64) :
    (op.Undefined a.toInt b.toInt ∧
        ∃ why, Builtin.arithmetic op.name [.integer a, .integer b] = .error why) ∨
      ¬ op.Undefined a.toInt b.toInt ∧ ∃ n : Int64, n.toInt = op.apply a.toInt b.toInt ∧
        Builtin.arithmetic op.name [.integer a, .integer b] = .ok (.integer n) := by
  cases op with
  | add => exact .inr ⟨not_undefined_of_ne (by decide) _ _, a + b, Int64.toInt_add a b, rfl⟩
  | sub => exact .inr ⟨not_undefined_of_ne (by decide) _ _, a - b, Int64.toInt_sub a b, rfl⟩
  | mul => exact .inr ⟨not_undefined_of_ne (by decide) _ _, a * b, Int64.toInt_mul a b, rfl⟩
  | div =>
    have hname : Builtin.arithmetic (name .div) [.integer a, .integer b] =
        (Builtin.divide a b).map .integer := rfl
    rw [hname]
    by_cases hpair : NoQuotient a.toInt b.toInt
    · obtain ⟨why, hdivide⟩ := divide_of_noQuotient hpair
      exact .inl ⟨⟨rfl, hpair⟩, why, by rw [hdivide]; rfl⟩
    · obtain ⟨hdivide, hquotient⟩ := divide_of_quotient hpair
      exact .inr ⟨fun h => hpair h.2, a / b, hquotient, by rw [hdivide]; rfl⟩

end ArithOp

/-! ### Arithmetic expressions -/

/-- An expression of integer literals and of calls with two arguments, with its places. -/
inductive Arith where
  /-- An integer literal. -/
  | literal (span : Span) (n : Int64)
  /-- A call of the function named at `head`. -/
  | call (span head : Span) (op : ArithOp) (a b : Arith)

namespace Arith

/-- Where an expression stands. -/
def span : Arith → Span
  | literal s _ | call s _ _ _ _ => s

/-- The syntax tree of an expression, given the symbols of the functions. -/
def expr (sym : ArithOp → Symbol) : Arith → Expr
  | literal s n => .integer s n
  | call s head op a b => .list s [.symbol head (sym op), a.expr sym, b.expr sym]

/-- What an expression comes to over the integers: its value, or the place of the call that has
none. -/
def outcome : Arith → Except Span Int
  | literal _ n => .ok n.toInt
  | call s _ op a b => do
    let x ← a.outcome
    let y ← b.outcome
    if op.Undefined x y then .error s else .ok (op.apply x y)

/-- The value of an expression over the integers, with nothing reduced. -/
def exact : Arith → Int
  | literal _ n => n.toInt
  | call _ _ op a b => op.exact a.exact b.exact

/-- The calls of an expression in the order in which they are made: from left to right, and the
operands of a call before the call. -/
def calls : Arith → List Arith
  | literal _ _ => []
  | call s head op a b => a.calls ++ b.calls ++ [call s head op a b]

/-- Is this a call of a function that is undefined for the values of its operands? -/
def refused : Arith → Bool
  | literal _ _ => false
  | call _ _ op a b =>
    match a.outcome, b.outcome with
    | .ok x, .ok y => op.Undefined x y
    | _, _ => false

/-- An expression without a value stops at the first call that is refused; one with a value has no
such call. -/
theorem find?_calls : ∀ e : Arith,
    (∃ x, e.outcome = .ok x ∧ e.calls.find? refused = none) ∨
      ∃ c, e.outcome = .error c.span ∧ e.calls.find? refused = some c
  | literal _ n => .inl ⟨n.toInt, rfl, rfl⟩
  | call s head op a b => by
    rw [outcome, calls, List.find?_append, List.find?_append]
    rcases find?_calls a with ⟨x, ha, hcalls⟩ | ⟨c, ha, hcalls⟩
    · rcases find?_calls b with ⟨y, hb, hcalls'⟩ | ⟨c, hb, hcalls'⟩
      · have hself : (call s head op a b).refused = decide (op.Undefined x y) := by
          rw [refused, ha, hb]
        rw [ha, hb, hcalls, hcalls', List.find?_singleton, hself]
        by_cases hundefined : op.Undefined x y
        · refine .inr ⟨call s head op a b, ?_, by simp [hundefined]⟩
          exact if_pos hundefined
        · refine .inl ⟨op.apply x y, ?_, by simp [hundefined]⟩
          exact if_neg hundefined
      · rw [ha, hb, hcalls, hcalls']
        exact .inr ⟨c, rfl, rfl⟩
    · rw [ha, hcalls]
      exact .inr ⟨c, rfl, rfl⟩

/-- Without division the value is the exact one, reduced once. -/
theorem outcome_of_no_division : ∀ {e : Arith},
    (∀ s head a b, call s head .div a b ∉ e.calls) → e.outcome = .ok (ArithOp.wrap e.exact)
  | literal _ n, _ => congrArg Except.ok (ArithOp.wrap_toInt n).symm
  | call s head op a b, h => by
    have hop : op ≠ .div := by
      rintro rfl
      exact h s head a b (by simp [calls])
    have ha := outcome_of_no_division fun s' head' a' b' hmem =>
      h s' head' a' b' (List.mem_append_left _ (List.mem_append_left _ hmem))
    have hb := outcome_of_no_division fun s' head' a' b' hmem =>
      h s' head' a' b' (List.mem_append_left _ (List.mem_append_right _ hmem))
    rw [outcome, ha, hb, exact, ← ArithOp.apply_wrap hop]
    exact if_neg (ArithOp.not_undefined_of_ne hop _ _)

end Arith

/-! ### Evaluation -/

/-- The symbols are bound to the functions of the language. -/
def BindsArithmetic (sym : ArithOp → Symbol) (stack : Stack) : Prop :=
  ∀ op : ArithOp, ∃ place scope, Builtin.find? op.name = some place ∧
    stack.lookup (sym op) = .ok (some (.function place, scope))

/-- A result that a computation ends with is what it should come to: a related value, or a call at
that place which does not apply to its arguments. -/
inductive ComesTo {α β : Type} (R : α → β → Prop) : Except Fault α → Except Span β → Prop
  /-- The values are related. -/
  | value {a : α} {b : β} (h : R a b) : ComesTo R (.ok a) (.ok b)
  /-- The call is refused. -/
  | refused (s : Span) : ComesTo R (.error (.failed ⟨.unsupportedOperation, s⟩)) (.error s)

/-- The value is that integer. -/
def IsInteger (v : Value) (n : Int) : Prop := ∃ k : Int64, v = .integer k ∧ k.toInt = n

/-- With the given scopes, which it leaves alone, the computation ends with what it should come
to. -/
def Computes {α β : Type} (stack : Stack) (R : α → β → Prop) (x : EvalM α) (o : Except Span β) :
    Prop :=
  ∀ m : Machine, m.stack = stack → ComesTo R (x m).1 o ∧ (x m).2.stack = stack

section Rules

variable {α β γ δ : Type} {R : α → β → Prop} {Q : γ → δ → Prop} {stack : Stack} {x : EvalM α}
  {o : Except Span β} {opts : EvalOptions} {source : Bytes}

theorem ComesTo.of_value {r : Except Fault α} (h : ComesTo R r o) {b : β} (ho : o = .ok b) :
    ∃ a, r = .ok a ∧ R a b := by
  cases h with
  | value hab =>
    cases ho
    exact ⟨_, rfl, hab⟩
  | refused s => cases ho

theorem ComesTo.of_refused {r : Except Fault α} (h : ComesTo R r o) {s : Span}
    (ho : o = .error s) : r = .error (.failed ⟨.unsupportedOperation, s⟩) := by
  cases h with
  | value hab => cases ho
  | refused s' => rw [Except.error.inj ho]

theorem computes_pure {a : α} {b : β} (h : R a b) : Computes stack R (pure a) (.ok b) :=
  fun _ hm => ⟨.value h, hm⟩

theorem Computes.bind {f : α → EvalM γ} {g : β → Except Span δ} (hx : Computes stack R x o)
    (hf : ∀ a b, R a b → Computes stack Q (f a) (g b)) : Computes stack Q (x >>= f) (o >>= g) := by
  intro m hm
  have h := hx m hm
  rcases hxm : x m with ⟨r, m'⟩
  rw [hxm] at h
  obtain ⟨hcomes, hstack⟩ := h
  cases hcomes with
  | value hab =>
    rw [EvalM.bind_of_ok hxm]
    exact hf _ _ hab m' hstack
  | refused s =>
    rw [EvalM.bind_of_error hxm]
    exact ⟨.refused s, hstack⟩

/-- Without a limit every evaluation goes ahead. -/
theorem Computes.guarded (hlimit : opts.limit = 0) (hx : Computes stack R x o) (span : Span) :
    Computes stack R (EvalM.guarded opts span x) o := by
  intro m hm
  obtain ⟨hcomes, hstack⟩ := hx { m with depth := m.depth + 1 } hm
  unfold EvalM.guarded
  simp only [hlimit, Nat.lt_irrefl, false_and, if_false]
  exact ⟨hcomes, hstack⟩

/-- A symbol has the value that it is bound to. -/
theorem Computes.lookup {sym : Symbol} {v : Value} {scope : Scope} {f : Option Value → EvalM α}
    (hbound : stack.lookup sym = .ok (some (v, scope))) (hf : Computes stack R (f (some v)) o) :
    Computes stack R (EvalM.lookup sym >>= f) o := by
  intro m hm
  have hfound : EvalM.lookup sym m = (.ok (some v), m) := by
    simp only [EvalM.lookup, hm, hbound]
    rfl
  rw [EvalM.bind_of_ok hfound]
  exact hf m hm

/-- The operands are evaluated from left to right. -/
theorem Computes.operands {a b : Expr} {p q : Except Span Int} {f : List Value → EvalM γ}
    {g : Int → Int → Except Span δ} (ha : Computes stack IsInteger (a.eval opts source) p)
    (hb : Computes stack IsInteger (b.eval opts source) q)
    (hf : ∀ x y : Int64, Computes stack Q (f [.integer x, .integer y]) (g x.toInt y.toInt)) :
    Computes stack Q (evalAll opts source [a, b] >>= f) (p >>= fun x => q >>= fun y => g x y) := by
  have hsplit : evalAll opts source [a, b] >>= f =
      a.eval opts source >>= fun v => b.eval opts source >>= fun w => f [v, w] := by
    simp only [evalAll, EvalM.bind_assoc]
    rfl
  rw [hsplit]
  refine ha.bind fun v x hv => hb.bind fun w y hw => ?_
  obtain ⟨m, rfl, rfl⟩ := hv
  obtain ⟨n, rfl, rfl⟩ := hw
  exact hf m n

end Rules

theorem get?_of_name (op : ArithOp) {place : Nat} (h : Builtin.find? op.name = some place) :
    Builtin.get? place = some ⟨op.name, Builtin.arithmetic op.name⟩ := by
  have hplaces : Builtin.find? (ArithOp.name .add) = some 0 ∧
      Builtin.find? (ArithOp.name .sub) = some 1 ∧ Builtin.find? (ArithOp.name .mul) = some 2 ∧
      Builtin.find? (ArithOp.name .div) = some 3 := by decide
  obtain ⟨hadd, hsub, hmul, hdiv⟩ := hplaces
  cases op with
  | add => cases hadd.symm.trans h; rfl
  | sub => cases hsub.symm.trans h; rfl
  | mul => cases hmul.symm.trans h; rfl
  | div => cases hdiv.symm.trans h; rfl

variable {opts : EvalOptions} {source : Bytes} {sym : ArithOp → Symbol} {stack : Stack}

/-- A call whose operands have values is refused at its place or gives the value. -/
theorem computes_call (op : ArithOp) {place : Nat} (hplace : Builtin.find? op.name = some place)
    (span : Span) (a b : Int64) :
    Computes stack IsInteger (call opts span place [.integer a, .integer b])
      (if op.Undefined a.toInt b.toInt then .error span
        else .ok (op.apply a.toInt b.toInt)) := by
  intro m hm
  unfold call
  rw [get?_of_name op hplace]
  rcases op.arithmetic_cases a b with ⟨hundefined, why, hcall⟩ | ⟨hdefined, n, hn, hcall⟩
  · simp only [hcall, if_pos hundefined]
    refine ⟨.refused span, ?_⟩
    unfold EvalM.report
    split <;> exact hm
  · simp only [hcall, if_neg hdefined]
    exact ⟨.value ⟨n, rfl, hn⟩, hm⟩

/-- Evaluating an arithmetic expression ends as it does over the integers. -/
theorem computes_eval (hlimit : opts.limit = 0) (hbound : BindsArithmetic sym stack) :
    ∀ e : Arith, Computes stack IsInteger ((e.expr sym).eval opts source) e.outcome
  | .literal s n => (computes_pure ⟨n, rfl, rfl⟩).guarded hlimit s
  | .call s head op a b => by
    obtain ⟨place, scope, hplace, hlookup⟩ := hbound op
    refine Computes.guarded hlimit (.lookup hlookup ?_) s
    exact (computes_eval hlimit hbound a).operands (computes_eval hlimit hbound b)
      fun x y => computes_call op hplace s x y

/-- Without a depth limit and with the names of the functions bound to them, an arithmetic
expression of any size evaluates to what it comes to over the integers.  It fails exactly if some
call of it is a division by zero or of -2^63 by -1, and then at the first such call in the order in
which calls are made.  Without division the value is the exact one reduced to 64 bits. -/
theorem eval_arithmetic (hlimit : opts.limit = 0) {m : Machine}
    (hbound : BindsArithmetic sym m.stack) (source : Bytes) (e : Arith) :
    let r := ((e.expr sym).eval opts source m).1
    ComesTo IsInteger r e.outcome ∧
      ((∃ f, r = .error f) ↔ ∃ c ∈ e.calls, c.refused = true) ∧
      (∀ c, e.calls.find? Arith.refused = some c →
        r = .error (.failed ⟨.unsupportedOperation, c.span⟩)) ∧
      ((∀ s head a b, Arith.call s head .div a b ∉ e.calls) →
        ∃ n : Int64, r = .ok (.integer n) ∧ n.toInt = ArithOp.wrap e.exact) := by
  intro r
  have hcomes : ComesTo IsInteger r e.outcome := (computes_eval hlimit hbound e m rfl).1
  refine ⟨hcomes, ?_, ?_, fun hdivision => ?_⟩
  · rw [← List.find?_isSome]
    rcases e.find?_calls with ⟨x, houtcome, hfind⟩ | ⟨c, houtcome, hfind⟩
    · obtain ⟨v, hr, -⟩ := hcomes.of_value houtcome
      simp [hr, hfind]
    · simp [hcomes.of_refused houtcome, hfind]
  · intro c hc
    rcases e.find?_calls with ⟨x, -, hfind⟩ | ⟨c', houtcome, hfind⟩
    · simp [hfind] at hc
    · cases hfind.symm.trans hc
      exact hcomes.of_refused houtcome
  · obtain ⟨-, hr, n, rfl, hn⟩ := hcomes.of_value (Arith.outcome_of_no_division hdivision)
    exact ⟨n, hr, hn⟩

/-- In `(+ (/ -9223372036854775808 -1) (/ 1 0))` of a new session neither division can be made, and
the left one is blamed. -/
theorem eval_arithmetic_two_refusals :
    let s := Session.ofId [] { limit := 0 }
    let sym : ArithOp → Symbol
      | .add => 0 | .sub => 1 | .mul => 2 | .div => 3
    let e : Arith := .call ⟨0, 39⟩ ⟨1, 2⟩ .add
      (.call ⟨3, 30⟩ ⟨4, 5⟩ .div (.literal ⟨6, 26⟩ Int64.minValue) (.literal ⟨27, 29⟩ (-1)))
      (.call ⟨31, 38⟩ ⟨32, 33⟩ .div (.literal ⟨34, 35⟩ 1) (.literal ⟨36, 37⟩ 0))
    BindsArithmetic sym s.stack ∧
      ((e.expr sym).eval { limit := 0 } [] { stack := s.stack }).1 =
        .error (.failed ⟨.unsupportedOperation, ⟨3, 30⟩⟩) := by
  intro s sym e
  have hbound : BindsArithmetic sym s.stack := by
    intro op
    cases op with
    | add => exact ⟨0, _, by decide, rfl⟩
    | sub => exact ⟨1, _, by decide, rfl⟩
    | mul => exact ⟨2, _, by decide, rfl⟩
    | div => exact ⟨3, _, by decide, rfl⟩
  have hfirst : e.calls.find? Arith.refused =
      some (.call ⟨3, 30⟩ ⟨4, 5⟩ .div (.literal ⟨6, 26⟩ Int64.minValue) (.literal ⟨27, 29⟩ (-1))) :=
    rfl
  exact ⟨hbound, (eval_arithmetic rfl hbound [] e).2.2.1 _ hfirst⟩

end SpanLisp
