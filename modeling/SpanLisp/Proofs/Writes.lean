import SpanLisp.Eval
import SpanLisp.Proofs.Frames

/-!
# What an evaluation writes

A tree defines the names of its forms `(def! name expr)`, those inside a `let*` left out
(`Expr.definedNames`), since they go away with the frame of that `let*`.  `Stack.WritesOnly W s s'`
says that `s'` differs from `s` at most in what the top frame binds the symbols in `W` to, and
`Confined W x` that the computation `x` does no more than that to the stack, however it ends.  A
frame of its own confines a computation to nothing (`Confined.inFrame`), so an evaluation is
confined to the names that its tree defines (`confined_eval`).
-/

namespace SpanLisp

/-! ### The names that a tree defines -/

namespace Expr

/-- Are these the elements of a `let*` form? -/
def isLet : List Expr → Bool
  | operator _ .letStar :: _ => true
  | _ => false

mutual

/-- The nodes of a tree that stand inside no `let*` form, each before its elements. -/
def outerNodes : Expr → List Expr
  | list s xs => list s xs :: if isLet xs then [] else outerNodesAll xs
  | vector s xs => vector s xs :: outerNodesAll xs
  | e => [e]

/-- The nodes of several trees that stand inside no `let*` form. -/
def outerNodesAll : List Expr → List Expr
  | [] => []
  | x :: xs => outerNodes x ++ outerNodesAll xs

end

/-- The name of a form `(def! name expr)`. -/
def definedName? : Expr → Option Symbol
  | list _ [operator _ .define, symbol _ sym, _] => some sym
  | _ => none

/-- The names of the forms `(def! name expr)` of a tree that stand inside no `let*` form. -/
def definedNames (e : Expr) : List Symbol := e.outerNodes.filterMap definedName?

/-- All names that the trees define are in `W`. -/
def DefineOnly (W : Symbol → Prop) (es : List Expr) : Prop :=
  ∀ sym ∈ (outerNodesAll es).filterMap definedName?, W sym

variable {W : Symbol → Prop} {e : Expr} {es : List Expr} {s : Span}

theorem outerNodesAll_singleton (e : Expr) : outerNodesAll [e] = e.outerNodes := by
  rw [outerNodesAll, outerNodesAll, List.append_nil]

theorem defineOnly_definedNames (e : Expr) : DefineOnly (· ∈ e.definedNames) [e] := by
  unfold DefineOnly definedNames
  rw [outerNodesAll_singleton]
  exact fun _ h => h

theorem defineOnly_all (es : List Expr) : DefineOnly (fun _ => True) es := fun _ _ => trivial

theorem DefineOnly.mono_nodes {es' : List Expr} (h : DefineOnly W es)
    (hsub : ∀ n ∈ outerNodesAll es', n ∈ outerNodesAll es) : DefineOnly W es' := by
  intro sym hsym
  obtain ⟨n, hn, hname⟩ := List.mem_filterMap.1 hsym
  exact h sym (List.mem_filterMap.2 ⟨n, hsub n hn, hname⟩)

theorem DefineOnly.first (h : DefineOnly W (e :: es)) : DefineOnly W [e] := by
  refine h.mono_nodes fun n hn => ?_
  rw [outerNodesAll_singleton] at hn
  exact List.mem_append_left _ hn

theorem DefineOnly.rest (h : DefineOnly W (e :: es)) : DefineOnly W es :=
  h.mono_nodes fun _ hn => List.mem_append_right _ hn

theorem DefineOnly.elems (h : DefineOnly W [list s es]) (hlet : isLet es = false) :
    DefineOnly W es := by
  refine h.mono_nodes fun n hn => ?_
  rw [outerNodesAll_singleton, outerNodes, hlet]
  exact List.mem_cons_of_mem _ hn

theorem DefineOnly.vectorElems (h : DefineOnly W [vector s es]) : DefineOnly W es := by
  refine h.mono_nodes fun n hn => ?_
  rw [outerNodesAll_singleton, outerNodes]
  exact List.mem_cons_of_mem _ hn

theorem DefineOnly.name {o n : Span} {sym : Symbol}
    (h : DefineOnly W [list s [operator o .define, symbol n sym, e]]) : W sym := by
  refine h sym (List.mem_filterMap.2 ⟨list s [operator o .define, symbol n sym, e], ?_, rfl⟩)
  rw [outerNodesAll_singleton, outerNodes]
  exact List.mem_cons_self

end Expr

/-! ### Stacks -/

namespace Stack

/-- The second stack differs from the first at most in what its top frame binds the symbols in `W`
to, and in the room it reserves; no binding is removed. -/
structure WritesOnly (W : Symbol → Prop) (s s' : Stack) : Prop where
  /-- At most the bindings of the top frame have changed. -/
  change : s.TopChange s'
  /-- The stack has the same name. -/
  name_eq : s'.name = s.name
  /-- The top frame binds what it bound, and binds it to the same unless it is in `W`. -/
  bindings : ∀ scope scope', s.frames[s.height - 1]? = some (some scope) →
    s'.frames[s.height - 1]? = some (some scope') → ∀ sym,
      (sym ∈ scope.bindings → sym ∈ scope'.bindings) ∧
        (¬ W sym → scope'.bindings[sym]? = scope.bindings[sym]?)

variable {W : Symbol → Prop} {s s' s'' : Stack}

theorem writesOnly_of_frames_eq (hchange : s.TopChange s') (hname : s'.name = s.name)
    (hframes : s'.frames = s.frames) : s.WritesOnly W s' where
  change := hchange
  name_eq := hname
  bindings scope scope' hscope hscope' sym := by
    rw [hframes, hscope] at hscope'
    cases hscope'
    exact ⟨id, fun _ => rfl⟩

theorem WritesOnly.refl (s : Stack) : s.WritesOnly W s :=
  writesOnly_of_frames_eq (.refl s) rfl rfl

theorem WritesOnly.trans (h₁ : s.WritesOnly W s') (h₂ : s'.WritesOnly W s'') :
    s.WritesOnly W s'' where
  change := h₁.change.trans h₂.change
  name_eq := h₂.name_eq.trans h₁.name_eq
  bindings scope scope'' hscope hscope'' sym := by
    obtain ⟨b, hb⟩ := h₁.change.top scope hscope
    obtain ⟨hkept₁, hsame₁⟩ := h₁.bindings scope _ hscope hb sym
    rw [← h₁.change.height_eq] at hb hscope''
    obtain ⟨hkept₂, hsame₂⟩ := h₂.bindings _ scope'' hb hscope'' sym
    exact ⟨fun h => hkept₂ (hkept₁ h), fun h => (hsame₂ h).trans (hsame₁ h)⟩

/-- Binding a symbol in `W`. -/
theorem writesOnly_bind (hs : s.WellFormed) (hpos : 0 < s.height) {sym : Symbol} (hsym : W sym)
    (v : Value) : ∃ s', bind sym v s = (.ok (), s') ∧ s.WritesOnly W s' := by
  obtain ⟨scope, hscope, hbind⟩ := bind_of_wellFormed hs hpos sym v
  refine ⟨_, hbind, topChange_set hscope _, rfl, fun scope₁ scope' hscope₁ hscope' other => ?_⟩
  rw [hscope] at hscope₁
  cases hscope₁
  rw [Array.getElem?_setIfInBounds_self_of_lt (by rw [hs.size_eq]; omega)] at hscope'
  cases hscope'
  refine ⟨fun h => Std.ExtTreeMap.mem_insert.2 (.inr h), fun hother => ?_⟩
  have hne : compare sym other ≠ .eq := fun h =>
    hother (Std.LawfulEqCmp.eq_of_compare h ▸ hsym)
  simp only [Scope.bind, Std.ExtTreeMap.getElem?_insert, if_neg hne]

/-- A stack with nothing written is the same but for the room it reserves. -/
theorem WritesOnly.eq (h : s.WritesOnly W s') (hs : s.WellFormed) (hpos : 0 < s.height)
    (hW : ∀ sym, ¬ W sym) : { s' with capacity := s.capacity } = s := by
  obtain ⟨scope, hscope, -⟩ := hs.frame (s.height - 1) (by omega)
  obtain ⟨b, hb⟩ := h.change.top scope hscope
  have hbindings : b = scope.bindings :=
    Std.ExtTreeMap.ext_getElem? fun sym => (h.bindings scope _ hscope hb sym).2 (hW sym)
  have hframes : s'.frames = s.frames := by
    refine Array.ext_getElem? fun place => ?_
    by_cases hbelow : place + 1 < s.height
    · exact h.change.below place hbelow
    by_cases htop : place = s.height - 1
    · rw [htop, hb, hscope, hbindings]
    · have hsize := hs.size_eq
      rw [Array.getElem?_eq_none (by rw [h.change.size_eq]; omega),
        Array.getElem?_eq_none (by omega)]
  obtain ⟨name, frames, height, capacity⟩ := s'
  obtain rfl : name = s.name := h.name_eq
  obtain rfl : height = s.height := h.change.height_eq
  obtain rfl : frames = s.frames := hframes
  rfl

end Stack

/-! ### Confined computations -/

/-- On a well-formed stack with a frame, the computation writes only to symbols in `W`. -/
def Confined {α : Type} (W : Symbol → Prop) (x : EvalM α) : Prop :=
  ∀ m : Machine, m.stack.WellFormed → 0 < m.stack.height →
    m.stack.WritesOnly W (x m).2.stack

section Rules

variable {α β : Type} {W : Symbol → Prop}

theorem confined_of_stack_eq {x : EvalM α} (h : ∀ m, (x m).2.stack = m.stack) : Confined W x := by
  intro m _ _
  rw [h m]
  exact .refl m.stack

theorem confined_pure (a : α) : Confined W (pure a) := confined_of_stack_eq fun _ => rfl

theorem confined_throw (f : Fault) : Confined W (EvalM.throw f : EvalM α) :=
  confined_of_stack_eq fun _ => rfl

theorem confined_fail (kind : EvalError.Kind) (span : Span) :
    Confined W (EvalM.fail kind span : EvalM α) :=
  confined_throw _

theorem confined_ofExcept (r : Except Defect α) : Confined W (EvalM.ofExcept r) := by
  cases r with
  | ok a => exact confined_pure a
  | error d => exact confined_throw _

theorem confined_report (opts : EvalOptions) (e : Event) : Confined W (EvalM.report opts e) := by
  refine confined_of_stack_eq fun m => ?_
  unfold EvalM.report
  split <;> rfl

theorem confined_topFrame : Confined W EvalM.topFrame := confined_of_stack_eq fun _ => rfl

theorem confined_lookup (sym : Symbol) : Confined W (EvalM.lookup sym) := by
  refine confined_of_stack_eq fun m => ?_
  unfold EvalM.lookup
  split <;> rfl

theorem confined_bindSymbol {sym : Symbol} (hsym : W sym) (v : Value) :
    Confined W (EvalM.bindSymbol sym v) := by
  intro m hs hpos
  obtain ⟨s', hbind, hwrites⟩ := Stack.writesOnly_bind hs hpos hsym v
  unfold EvalM.bindSymbol
  rw [EvalM.onStack_eq hbind]
  exact hwrites

theorem Confined.bind {x : EvalM α} {f : α → EvalM β} (hx : Confined W x)
    (hf : ∀ a, Confined W (f a)) : Confined W (x >>= f) := by
  intro m hs hpos
  have h := hx m hs hpos
  rcases hxm : x m with ⟨r, m'⟩
  rw [hxm] at h
  cases r with
  | error e =>
    rw [EvalM.bind_of_error hxm]
    exact h
  | ok a =>
    rw [EvalM.bind_of_ok hxm]
    exact h.trans (hf a m' (h.change.wellFormed hs) (by rw [h.change.height_eq]; exact hpos))

theorem Confined.guarded {x : EvalM α} (h : Confined W x) (opts : EvalOptions) (span : Span) :
    Confined W (EvalM.guarded opts span x) := by
  intro m hs hpos
  unfold EvalM.guarded
  simp only
  split
  · exact .refl m.stack
  · exact h { m with depth := m.depth + 1 } hs hpos

/-- What a computation writes in a frame of its own goes with that frame. -/
theorem Confined.inFrame {V : Symbol → Prop} {x : EvalM α} (h : Confined V x) (name : Bytes) :
    Confined W (EvalM.inFrame name x) := by
  intro m hs _
  have hwrites := h { m with stack := m.stack.withNamed name }
    (Stack.wellFormed_withNamed hs name) (Nat.succ_pos _)
  obtain ⟨-, hframes, hchange⟩ := Stack.popScope_withNamed hs.size_eq hwrites.change
  rw [EvalM.inFrame_of_change hs.size_eq hwrites.change]
  exact Stack.writesOnly_of_frames_eq hchange hwrites.name_eq hframes

theorem confined_define (opts : EvalOptions) (source : Bytes) (span : Span) {sym : Symbol}
    (hsym : W sym) (v : Value) : Confined W (define opts source span sym v) := by
  unfold define
  refine (confined_bindSymbol hsym v).bind fun _ => ?_
  cases opts.trace with
  | false => exact confined_pure v
  | true =>
    exact (confined_ofExcept _).bind fun _ => confined_topFrame.bind fun _ =>
      (confined_report opts _).bind fun _ => confined_pure v

theorem confined_call (opts : EvalOptions) (span : Span) (index : Int) (args : List Value) :
    Confined W (call opts span index args) := by
  unfold call
  cases Builtin.get? index with
  | none => exact confined_throw _
  | some f =>
    simp only
    cases f.apply args with
    | ok v => exact confined_pure v
    | error why => exact (confined_report opts _).bind fun _ => confined_fail _ span

end Rules

/-! ### Evaluation -/

variable {opts : EvalOptions} {source : Bytes}

open Expr (DefineOnly defineOnly_all)

mutual

/-- An evaluation is confined to the names that its tree defines. -/
theorem confined_eval :
    ∀ {W : Symbol → Prop} {e : Expr}, DefineOnly W [e] → Confined W (e.eval opts source)
  | _, .bool span b, _ => (confined_pure (Value.bool b)).guarded opts span
  | _, .integer span n, _ => (confined_pure (Value.integer n)).guarded opts span
  | _, .nil span, _ => (confined_pure Value.nil).guarded opts span
  | _, .keyword span sym, _ => (confined_pure (Value.keyword sym)).guarded opts span
  | _, .string span, _ => ((confined_ofExcept _).bind fun text =>
      confined_pure (Value.string text)).guarded opts span
  | _, .symbol span sym, _ => by
    refine ((confined_lookup sym).bind fun found => ?_).guarded opts span
    cases found with
    | none => exact confined_fail _ span
    | some v => exact confined_pure v
  | _, .vector span elems, h => ((confined_evalAll h.vectorElems).bind fun vs =>
      confined_pure (Value.vector vs)).guarded opts span
  | _, .list span [], _ => (confined_fail .emptyList span).guarded opts span
  | _, .list span (.operator _ .define :: _), h => (confined_evalDefine h).guarded opts span
  | _, .list span (.operator _ .cond :: _), h =>
    (confined_evalCond span (h.elems rfl).rest).guarded opts span
  | _, .list span (.operator _ .letStar :: args), _ =>
    (confined_evalLet span args).guarded opts span
  | _, .list span (.operator _ (.unlisted _) :: _), _ => (confined_throw _).guarded opts span
  | _, .list span (.symbol headSpan sym :: args), h => by
    have hargs := confined_evalAll (h.elems rfl).rest
    refine ((confined_lookup sym).bind fun found => ?_).guarded opts span
    cases found with
    | none => exact confined_fail _ headSpan
    | some v =>
      cases v with
      | function index => exact hargs.bind fun vs => confined_call opts span index vs
      | nil | bool | integer | keyword | string | vector | unlisted =>
        exact confined_fail _ headSpan
  | _, .list span (.bool _ _ :: _), _ | _, .list span (.integer _ _ :: _), _
  | _, .list span (.keyword _ _ :: _), _ | _, .list span (.list _ _ :: _), _
  | _, .list span (.nil _ :: _), _ | _, .list span (.string _ :: _), _
  | _, .list span (.vector _ _ :: _), _ | _, .list span (.unlisted _ _ :: _), _ =>
    (confined_fail _ _).guarded opts span
  | _, .operator span _, _ | _, .unlisted span _, _ => (confined_throw _).guarded opts span

theorem confined_evalAll :
    ∀ {W : Symbol → Prop} {es : List Expr}, DefineOnly W es → Confined W (evalAll opts source es)
  | _, [], _ => confined_pure []
  | _, _ :: _, h => (confined_eval h.first).bind fun v =>
      (confined_evalAll h.rest).bind fun vs => confined_pure (v :: vs)

theorem confined_evalDefine :
    ∀ {W : Symbol → Prop} {s o : Span} {args : List Expr},
      DefineOnly W [.list s (.operator o .define :: args)] →
      Confined W (evalDefine opts source s args)
  | _, _, _, [], _ => confined_fail _ _
  | _, _, _, [x], _ | _, _, _, x :: _ :: _ :: _, _ => by cases x <;> exact confined_fail _ _
  | _, _, _, [.symbol n sym, e], h =>
    (confined_eval (h.elems rfl).rest.rest).bind fun v =>
      confined_define opts source n h.name v
  | _, _, _, [.bool _ _, _], _ | _, _, _, [.integer _ _, _], _ | _, _, _, [.keyword _ _, _], _
  | _, _, _, [.list _ _, _], _ | _, _, _, [.nil _, _], _ | _, _, _, [.operator _ _, _], _
  | _, _, _, [.string _, _], _ | _, _, _, [.vector _ _, _], _ | _, _, _, [.unlisted _ _, _], _ =>
    confined_fail _ _

theorem confined_evalCond (span : Span) :
    ∀ {W : Symbol → Prop} {args : List Expr}, DefineOnly W args →
      Confined W (evalCond opts source span args)
  | _, [], _ | _, [_], _ | _, [_, _], _ | _, _ :: _ :: _ :: _ :: _, _ => confined_fail _ span
  | _, [test, yes, no], h => by
    have hyes := confined_eval h.rest.first
    have hno := confined_eval h.rest.rest
    refine (confined_eval h.first).bind fun v => ?_
    cases v.isTruthy with
    | true => exact hyes
    | false => exact hno

theorem confined_evalLet (span : Span) :
    ∀ {W : Symbol → Prop} (args : List Expr), Confined W (evalLet opts source span args)
  | _, [] => confined_fail _ span
  | _, [x] | _, x :: _ :: _ :: _ => by cases x <;> exact confined_fail _ span
  | _, [.list s elems, body] | _, [.vector s elems, body] => by
    rw [evalLet]
    split
    · exact confined_fail _ s
    · exact (confined_topFrame.bind fun _ => (confined_report opts _).bind fun _ =>
        (confined_evalBindings elems).bind fun _ => confined_eval (defineOnly_all [body])).inFrame _
  | _, [.bool _ _, _] | _, [.integer _ _, _] | _, [.keyword _ _, _] | _, [.symbol _ _, _]
  | _, [.nil _, _] | _, [.operator _ _, _] | _, [.string _, _] | _, [.unlisted _ _, _] =>
    confined_fail _ _

theorem confined_evalBindings :
    ∀ es : List Expr, Confined (fun _ => True) (evalBindings opts source es)
  | [] => confined_pure ()
  | [x] => by cases x <;> exact confined_pure ()
  | .symbol _ sym :: e :: rest =>
    (confined_eval (defineOnly_all [e])).bind fun v =>
      (confined_bindSymbol trivial v).bind fun _ => confined_evalBindings rest
  | .bool _ _ :: _ :: _ | .integer _ _ :: _ :: _ | .keyword _ _ :: _ :: _
  | .list _ _ :: _ :: _ | .nil _ :: _ :: _ | .operator _ _ :: _ :: _
  | .string _ :: _ :: _ | .vector _ _ :: _ :: _ | .unlisted _ _ :: _ :: _ =>
    confined_fail _ _

end

/-! ### The stack after an evaluation -/

theorem stack_eval_of_definedNames {e : Expr} (h : e.definedNames = []) {m : Machine}
    (hs : m.stack.WellFormed) (hpos : 0 < m.stack.height) :
    { (e.eval opts source m).2.stack with capacity := m.stack.capacity } = m.stack := by
  refine (confined_eval (Expr.defineOnly_definedNames e) m hs hpos).eq hs hpos fun sym hsym => ?_
  rw [h] at hsym
  exact List.not_mem_nil hsym

/-- However the evaluation of an expression ends, the stack has as many frames as before, well
formed, and those below the top are the same.  The top frame is the same but for its bindings: none
is removed, and one can differ only if the tree has a form `(def! name expr)` for it outside every
`let*`.  Without such a form the stack is what it was, up to the room it reserves. -/
theorem eval_writes_definitions (opts : EvalOptions) (source : Bytes) (e : Expr) {m : Machine}
    (hs : m.stack.WellFormed) (hpos : 0 < m.stack.height) :
    let s := m.stack
    let s' := (e.eval opts source m).2.stack
    s'.WellFormed ∧ s'.height = s.height ∧
      (∀ place, place + 1 < s.height → s'.frames[place]? = s.frames[place]?) ∧
      (∃ scope bindings, s.frames[s.height - 1]? = some (some scope) ∧
        s'.frames[s.height - 1]? = some (some { scope with bindings := bindings }) ∧
        (∀ sym ∈ scope.bindings, sym ∈ bindings) ∧
        ∀ sym, bindings[sym]? ≠ scope.bindings[sym]? → sym ∈ e.definedNames) ∧
      (e.definedNames = [] → { s' with capacity := s.capacity } = s) := by
  intro s s'
  have hwrites : s.WritesOnly (· ∈ e.definedNames) s' :=
    confined_eval (Expr.defineOnly_definedNames e) m hs hpos
  obtain ⟨scope, hscope, -⟩ := hs.frame (s.height - 1) (Nat.sub_lt hpos Nat.one_pos)
  obtain ⟨b, hb⟩ := hwrites.change.top scope hscope
  have hbindings := hwrites.bindings scope _ hscope hb
  refine ⟨hwrites.change.wellFormed hs, hwrites.change.height_eq, hwrites.change.below,
    ⟨scope, b, hscope, hb, fun sym => (hbindings sym).1, fun sym hne => ?_⟩,
    fun hnone => stack_eval_of_definedNames hnone hs hpos⟩
  exact Decidable.byContradiction fun hsym => hne ((hbindings sym).2 hsym)

/-- A definition in a condition is seen afterwards; the one in the `let*` of the chosen branch is
not. -/
theorem eval_writes_definitions_let :
    let e := Expr.list ⟨0, 41⟩ [.operator ⟨1, 3⟩ .cond,
      .list ⟨4, 14⟩ [.operator ⟨5, 9⟩ .define, .symbol ⟨10, 11⟩ 1, .integer ⟨12, 13⟩ 1],
      .list ⟨15, 38⟩ [.operator ⟨16, 20⟩ .letStar,
        .vector ⟨21, 26⟩ [.symbol ⟨22, 23⟩ 2, .integer ⟨24, 25⟩ 2],
        .list ⟨27, 37⟩ [.operator ⟨28, 32⟩ .define, .symbol ⟨33, 34⟩ 3, .symbol ⟨35, 36⟩ 2]],
      .integer ⟨39, 40⟩ 0]
    let m : Machine := { stack := (Stack.ofName []).withNamed (utf8 "user") }
    let s' := (e.eval {} (utf8 "(if (def! x 1) (let* [y 2] (def! z y)) 0)") m).2.stack
    m.stack.WellFormed ∧ 0 < m.stack.height ∧ e.definedNames = [1] ∧ s'.height = 1 ∧
      ∃ scope, s'.frames[0]? = some (some scope) ∧ scope.bindings[3]? = none := by
  intro e m s'
  have hs : m.stack.WellFormed := Stack.wellFormed_withNamed (Stack.wellFormed_ofName []) _
  have hnames : e.definedNames = [1] := by decide
  obtain ⟨-, hheight, -, ⟨scope, b, hscope, hb, -, hwritten⟩, -⟩ :=
    eval_writes_definitions {} (utf8 "(if (def! x 1) (let* [y 2] (def! z y)) 0)") e hs
      (Nat.succ_pos 0)
  refine ⟨hs, Nat.succ_pos 0, hnames, hheight, _, hb, ?_⟩
  have hempty : scope.bindings = ∅ := by
    cases hscope
    rfl
  refine Decidable.byContradiction fun hne => ?_
  have hmem := hwritten 3 (by rw [hempty, Std.ExtTreeMap.getElem?_empty]; exact hne)
  rw [hnames] at hmem
  exact absurd hmem (by decide)

end SpanLisp
