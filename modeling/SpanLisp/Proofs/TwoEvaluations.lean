import SpanLisp.Proofs.TwoReadings

/-! Evaluating the same tree on two stacks that bind the same names to the same values gives the
same value, or the same fault, and leaves such stacks. -/

namespace SpanLisp

variable {t u : Interner}

/-! ### Frames and stacks -/

namespace Scope

/-- The frames bind the same names to the same values, and stand in the same place. -/
structure Same (t u : Interner) (s s' : Scope) : Prop where
  name_eq : s.name = s'.name
  isGlobal_eq : s.isGlobal = s'.isGlobal
  parent_eq : s.parent = s'.parent
  values (name : Bytes) : Option.Rel (Value.Same t u) (s.valueOf? t name) (s'.valueOf? u name)

theorem valueOf?_of_name? {s : Scope} (ht : t.names.Nodup) {sym : Symbol} {name : Bytes}
    (h : t.name? sym = some name) : s.valueOf? t name = s.bindings[sym]? := by
  rw [valueOf?, (Interner.find?_eq_some_iff ht).2 h, Option.bind_some]

theorem valueOf?_named (name other : Bytes) : (named name).valueOf? t other = none := by
  unfold valueOf? named
  cases t.find? other with
  | none => rfl
  | some sym => exact Std.ExtTreeMap.getElem?_empty

variable {s s' : Scope} {a b : Symbol}

theorem Same.getElem? (h : s.Same t u s') (ht : t.names.Nodup) (hu : u.names.Nodup)
    (hab : Interner.SameName t u a b) :
    Option.Rel (Value.Same t u) s.bindings[a]? s'.bindings[b]? := by
  obtain ⟨name, ha, hb⟩ := hab
  rw [← valueOf?_of_name? ht ha, ← valueOf?_of_name? hu hb]
  exact h.values name

theorem Same.bind (h : s.Same t u s') (ht : t.names.Nodup) (hu : u.names.Nodup)
    (hab : Interner.SameName t u a b) {v w : Value} (hvw : v.Same t u w) :
    (s.bind a v).Same t u (s'.bind b w) where
  name_eq := h.name_eq
  isGlobal_eq := h.isGlobal_eq
  parent_eq := h.parent_eq
  values other := by
    obtain ⟨name, ha, hb⟩ := hab
    rw [valueOf?_bind ((Interner.find?_eq_some_iff ht).2 ha),
      valueOf?_bind ((Interner.find?_eq_some_iff hu).2 hb)]
    split
    · exact .some hvw
    · exact h.values other

end Scope

namespace Stack

/-- The stacks have the same frames; their names and the room they reserve do not matter. -/
structure Same (t u : Interner) (s s' : Stack) : Prop where
  height_eq : s.height = s'.height
  size_eq : s.frames.size = s'.frames.size
  frames (place : Nat) :
    Option.Rel (Option.Rel (Scope.Same t u)) s.frames[place]? s'.frames[place]?

variable {s s' : Stack}

theorem Same.topPlace?_eq (h : s.Same t u s') : s.topPlace? = s'.topPlace? := by
  rw [topPlace?, topPlace?, h.height_eq]

theorem Same.frameAt (h : s.Same t u s') (place : Nat) :
    SameEnd (Scope.Same t u) (s.frameAt place) (s'.frameAt place) := by
  have hframe := h.frames place
  unfold Stack.frameAt
  generalize s.frames[place]? = f, s'.frames[place]? = f' at hframe ⊢
  cases hframe with
  | none => exact .error _
  | some hscope =>
    cases hscope with
    | none => exact .error _
    | some hscope => exact .ok hscope

/-- From same stacks the operations end the same way and leave same stacks. -/
def SameRun {ε α β : Type} (t u : Interner) (R : α → β → Prop) (x : StackM ε α) (y : StackM ε β) :
    Prop :=
  ∀ s s', Same t u s s' → SameEnd R (x s).1 (y s').1 ∧ Same t u (x s).2 (y s').2

theorem Same.set (h : s.Same t u s') (place : Nat) {scope scope' : Scope}
    (hscope : scope.Same t u scope') :
    { s with frames := s.frames.setIfInBounds place (some scope) }.Same t u
      { s' with frames := s'.frames.setIfInBounds place (some scope') } where
  height_eq := h.height_eq
  size_eq := by simp only [Array.size_setIfInBounds, h.size_eq]
  frames i := by
    simp only [Array.getElem?_setIfInBounds, h.size_eq]
    split
    · split
      · exact .some (.some hscope)
      · exact .none
    · exact h.frames i

theorem sameRun_bindAt (ht : t.names.Nodup) (hu : u.names.Nodup) (place : Nat) {a b : Symbol}
    (hab : Interner.SameName t u a b) {v w : Value} (hvw : v.Same t u w) :
    SameRun t u Eq (bindAt place a v) (bindAt place b w) := by
  intro s s' h
  have hend := h.frameAt place
  rcases frameAt_cases s place with ⟨scope, hscope, hframe⟩ | ⟨d, hframe⟩
  · rcases frameAt_cases s' place with ⟨scope', hscope', hframe'⟩ | ⟨d, hframe'⟩
    · rw [hframe, hframe'] at hend
      cases hend with
      | ok hsame =>
        rw [bindAt_of_frame hscope, bindAt_of_frame hscope']
        exact ⟨.ok rfl, h.set place (hsame.bind ht hu hab hvw)⟩
    · rw [hframe, hframe'] at hend
      cases hend
  · rw [bindAt_of_error hframe, bindAt_of_error (hend.error_left hframe)]
    exact ⟨.error d, h⟩

theorem sameRun_bind (ht : t.names.Nodup) (hu : u.names.Nodup) {a b : Symbol}
    (hab : Interner.SameName t u a b) {v w : Value} (hvw : v.Same t u w) :
    SameRun t u Eq (Stack.bind a v) (Stack.bind b w) := by
  intro s s' h
  cases htop : s'.topPlace? with
  | none =>
    rw [bind_of_none (h.topPlace?_eq.trans htop), bind_of_none htop]
    exact ⟨.error _, h⟩
  | some place =>
    rw [bind_of_topPlace? (h.topPlace?_eq.trans htop), bind_of_topPlace? htop]
    exact sameRun_bindAt ht hu place hab hvw s s' h

theorem Same.lookupFrom (h : s.Same t u s') (ht : t.names.Nodup) (hu : u.names.Nodup)
    {a b : Symbol} (hab : Interner.SameName t u a b) (fuel : Nat) (place : Option Nat) :
    SameEnd (Option.Rel fun p q => p.1.Same t u q.1) (s.lookupFrom a fuel place)
      (s'.lookupFrom b fuel place) := by
  induction fuel generalizing place with
  | zero => exact .ok .none
  | succ fuel ih =>
    cases place with
    | none => exact .ok .none
    | some place =>
      have hframe := h.frameAt place
      rw [Stack.lookupFrom, Stack.lookupFrom]
      generalize s.frameAt place = f, s'.frameAt place = f' at hframe ⊢
      cases hframe with
      | error d => exact .error d
      | @ok scope scope' hscope =>
        have hvalue := hscope.getElem? ht hu hab
        simp only
        generalize scope.bindings[a]? = x, scope'.bindings[b]? = y at hvalue ⊢
        cases hvalue with
        | some hvalue => exact .ok (.some hvalue)
        | none =>
          simp only [hscope.parent_eq]
          exact ih scope'.parent

theorem Same.withNamed (h : s.Same t u s') (name : Bytes) :
    (s.withNamed name).Same t u (s'.withNamed name) where
  height_eq := congrArg (· + 1) h.height_eq
  size_eq := by
    simp only [Stack.withNamed, withTop, Array.size_push, h.size_eq]
  frames place := by
    simp only [Stack.withNamed, withTop, Array.getElem?_push, h.size_eq]
    split
    · refine .some (.some ⟨rfl, rfl, h.topPlace?_eq, fun other => ?_⟩)
      have hnone : ∀ v : Interner, ∀ parent : Option Nat,
          ({ Scope.named name with parent := parent } : Scope).valueOf? v other = none :=
        fun v _ => Scope.valueOf?_named name other
      rw [hnone, hnone]
      exact .none
    · exact h.frames place

theorem sameRun_pushNamed (name : Bytes) : SameRun t u Eq (pushNamed name) (pushNamed name) := by
  intro s s' h
  unfold pushNamed
  by_cases hsize : s.frames.size = s.height
  · rw [push_of_size_eq hsize, push_of_size_eq (h.size_eq ▸ h.height_eq ▸ hsize)]
    exact ⟨.ok rfl, h.withNamed name⟩
  · rw [push_of_size_ne hsize, push_of_size_ne (h.size_eq ▸ h.height_eq ▸ hsize), top, top,
      h.size_eq, h.height_eq]
    exact ⟨.error _, h⟩

theorem Same.withoutTop (h : s.Same t u s') : s.withoutTop.Same t u s'.withoutTop where
  height_eq := congrArg (· - 1) h.height_eq
  size_eq := by simp only [Stack.withoutTop, Array.size_extract, h.size_eq, h.height_eq]
  frames i := by
    simp only [Stack.withoutTop, Array.getElem?_extract, h.size_eq, h.height_eq]
    split
    · exact h.frames _
    · exact .none

theorem Same.get_zero (h : s.Same t u s') :
    SameEnd (Scope.Same t u) (s.get 0) (s'.get 0) := by
  have hplace : s.place? 0 = s'.place? 0 := by
    rw [place?, place?, h.height_eq]
  unfold get
  rw [hplace]
  cases s'.place? 0 with
  | none => exact .error _
  | some place =>
    have hframe := h.frameAt place
    simp only
    generalize s.frameAt place = f, s'.frameAt place = f' at hframe ⊢
    cases hframe with
    | error d => exact .error _
    | ok hscope => exact .ok hscope

theorem sameRun_popScope : SameRun t u Eq popScope popScope := by
  intro s s' h
  have hend := h.get_zero
  cases htop : s.get 0 with
  | error e =>
    rw [popScope_of_error htop, popScope_of_error (hend.error_left htop)]
    exact ⟨.error e, h⟩
  | ok scope =>
    obtain ⟨scope', htop'⟩ := hend.ok_left htop
    rw [htop, htop'] at hend
    cases hend with
    | ok hscope =>
      cases hglobal : scope.isGlobal with
      | true =>
        rw [popScope_of_global htop hglobal,
          popScope_of_global htop' (hscope.isGlobal_eq ▸ hglobal)]
        exact ⟨.error _, h⟩
      | false =>
        rw [popScope_of_local htop hglobal,
          popScope_of_local htop' (hscope.isGlobal_eq ▸ hglobal)]
        exact ⟨.ok rfl, h.withoutTop⟩

theorem SameRun.mapError {ε ε' α β : Type} {R : α → β → Prop} {x : StackM ε α} {y : StackM ε β}
    (h : SameRun t u R x y) (f : ε → ε') : SameRun t u R (x.mapError f) (y.mapError f) := by
  intro s s' hs
  obtain ⟨hend, hrest⟩ := h s s' hs
  exact ⟨hend.mapError f, hrest⟩

end Stack

/-! ### Calls -/

/-- The integer that a value is. -/
def Value.integer? : Value → Option Int64
  | integer n => some n
  | _ => none

theorem Value.Same.integer? : ∀ {v w : Value}, v.Same t u w → v.integer? = w.integer?
  | nil, nil, _ | bool _, bool _, _ | function _, function _, _ | string _, string _, _
  | keyword _, keyword _, _ | vector _, vector _, _ | unlisted _, unlisted _, _ => rfl
  | integer _, integer _, h => congrArg some h

namespace Builtin

theorem twoIntegers_pair (v w : Value) :
    twoIntegers [v, w] =
      match v.integer?, w.integer? with
      | some a, some b => .ok (a, b)
      | _, _ => .error .wrongType := by
  cases v <;> cases w <;> rfl

theorem twoIntegers_many (v w x : Value) (vs : List Value) :
    twoIntegers (v :: w :: x :: vs) = .error .wrongCount := by
  cases v <;> cases w <;> rfl

theorem twoIntegers_same :
    ∀ {vs ws : List Value}, Value.SameAll t u vs ws → twoIntegers vs = twoIntegers ws
  | [], [], _ => rfl
  | [v], [w], _ => by cases v <;> cases w <;> rfl
  | _ :: _ :: _ :: _, _ :: _ :: _ :: _, _ => by rw [twoIntegers_many, twoIntegers_many]
  | [v, v'], [w, w'], ⟨h, h', _⟩ => by
    rw [twoIntegers_pair, twoIntegers_pair, h.integer?, h'.integer?]

/-- A function of the table sees nothing of its arguments but integers. -/
theorem apply_same {index : Int} {f : Builtin} (hf : get? index = some f) {vs ws : List Value}
    (h : Value.SameAll t u vs ws) : f.apply vs = f.apply ws := by
  rcases table_cases (mem_table_of_get? hf) with ⟨name, rfl⟩ | ⟨name, rfl⟩
  · show arithmetic (utf8 name) vs = arithmetic (utf8 name) ws
    rw [arithmetic, arithmetic, twoIntegers_same h]
  · show compare (utf8 name) vs = compare (utf8 name) ws
    rw [compare, compare, twoIntegers_same h]

end Builtin

/-! ### Machines -/

/-- The machines have the same frames, and have counted and reported the same. -/
structure Machine.Same (t u : Interner) (m m' : Machine) : Prop where
  stack : m.stack.Same t u m'.stack
  depth_eq : m.depth = m'.depth
  events_eq : m.events = m'.events

/-! ### Computations -/

/-- From same machines the computations end the same way and leave same machines. -/
def Corresponds {α β : Type} (t u : Interner) (R : α → β → Prop) (x : EvalM α) (y : EvalM β) :
    Prop :=
  ∀ m m', Machine.Same t u m m' →
    SameEnd R (x m).1 (y m').1 ∧ Machine.Same t u (x m).2 (y m').2

variable {α β γ δ : Type} {R : α → β → Prop} {S : γ → δ → Prop}

theorem corresponds_result {r : Except Fault α} {r' : Except Fault β} (h : SameEnd R r r') :
    Corresponds t u R (fun m => (r, m)) (fun m => (r', m)) :=
  fun _ _ hm => ⟨h, hm⟩

theorem corresponds_pure {a : α} {b : β} (h : R a b) : Corresponds t u R (pure a) (pure b) :=
  corresponds_result (.ok h)

theorem corresponds_value {v w : Value} (h : v.Same t u w) :
    Corresponds t u (Value.Same t u) (pure v) (pure w) :=
  corresponds_pure h

theorem corresponds_throw (f : Fault) : Corresponds t u R (EvalM.throw f) (EvalM.throw f) :=
  corresponds_result (.error f)

theorem corresponds_fail (kind : EvalError.Kind) (span : Span) :
    Corresponds t u R (EvalM.fail kind span) (EvalM.fail kind span) :=
  corresponds_throw _

theorem corresponds_ofExcept (r : Except Defect α) :
    Corresponds t u Eq (EvalM.ofExcept r) (EvalM.ofExcept r) := by
  cases r with
  | ok a => exact corresponds_pure rfl
  | error d => exact corresponds_throw _

theorem Corresponds.bind {x : EvalM α} {y : EvalM β} {f : α → EvalM γ} {g : β → EvalM δ}
    (hxy : Corresponds t u R x y) (hfg : ∀ a b, R a b → Corresponds t u S (f a) (g b)) :
    Corresponds t u S (x >>= f) (y >>= g) := by
  intro m m' hm
  obtain ⟨hend, hm₁⟩ := hxy m m' hm
  rcases hx : x m with ⟨r, m₁⟩
  rcases hy : y m' with ⟨r', m₁'⟩
  rw [hx, hy] at hend hm₁
  cases hend with
  | error e =>
    rw [EvalM.bind_of_error hx, EvalM.bind_of_error hy]
    exact ⟨.error e, hm₁⟩
  | ok hab =>
    rw [EvalM.bind_of_ok hx, EvalM.bind_of_ok hy]
    exact hfg _ _ hab m₁ m₁' hm₁

theorem corresponds_report (opts : EvalOptions) (e : Event) :
    Corresponds t u Eq (EvalM.report opts e) (EvalM.report opts e) := by
  intro m m' hm
  refine ⟨.ok rfl, ?_⟩
  unfold EvalM.report
  cases opts.trace with
  | false => exact hm
  | true => exact ⟨hm.stack, hm.depth_eq, congrArg (e :: ·) hm.events_eq⟩

theorem corresponds_topFrame : Corresponds t u Eq EvalM.topFrame EvalM.topFrame := by
  intro m m' hm
  refine ⟨.ok ?_, hm⟩
  rw [Stack.top, Stack.top, hm.stack.height_eq]

theorem corresponds_reportTop (opts : EvalOptions) (e : Int → Event) :
    Corresponds t u Eq (EvalM.topFrame >>= fun frame => EvalM.report opts (e frame))
      (EvalM.topFrame >>= fun frame => EvalM.report opts (e frame)) := by
  refine corresponds_topFrame.bind fun frame _ hframe => ?_
  subst hframe
  exact corresponds_report opts (e frame)

theorem Corresponds.guarded {x : EvalM α} {y : EvalM β} (h : Corresponds t u R x y)
    (opts : EvalOptions) (span : Span) :
    Corresponds t u R (EvalM.guarded opts span x) (EvalM.guarded opts span y) := by
  intro m m' hm
  have hinner : Machine.Same t u { m with depth := m.depth + 1 }
      { m' with depth := m'.depth + 1 } :=
    ⟨hm.stack, congrArg (· + 1) hm.depth_eq, hm.events_eq⟩
  unfold EvalM.guarded
  simp only [hm.depth_eq] at hinner ⊢
  split
  · exact ⟨.error _, hm.stack, rfl, hm.events_eq⟩
  · obtain ⟨hend, hrest⟩ := h _ _ hinner
    exact ⟨hend, hrest.stack, congrArg (· - 1) hrest.depth_eq, hrest.events_eq⟩

theorem corresponds_onStack {x : StackM Defect α} {y : StackM Defect β}
    (h : Stack.SameRun t u R x y) : Corresponds t u R (EvalM.onStack x) (EvalM.onStack y) := by
  intro m m' hm
  obtain ⟨hend, hstack⟩ := h m.stack m'.stack hm.stack
  exact ⟨hend.mapError Fault.defect, hstack, hm.depth_eq, hm.events_eq⟩

theorem Corresponds.thenAlways {x : EvalM α} {y : EvalM β} {z w : EvalM Unit}
    (hxy : Corresponds t u R x y) (hzw : Corresponds t u Eq z w) :
    Corresponds t u R (EvalM.thenAlways x z) (EvalM.thenAlways y w) := by
  intro m m' hm
  obtain ⟨hend, hm₁⟩ := hxy m m' hm
  obtain ⟨hend', hm₂⟩ := hzw _ _ hm₁
  rcases hz : z (x m).2 with ⟨r, m₂⟩
  rcases hw : w (y m').2 with ⟨r', m₂'⟩
  rw [hz, hw] at hend' hm₂
  cases hend' with
  | ok _ =>
    rw [EvalM.thenAlways_of_ok hz, EvalM.thenAlways_of_ok hw]
    exact ⟨hend, hm₂⟩
  | error f =>
    rw [EvalM.thenAlways_of_error hz, EvalM.thenAlways_of_error hw]
    exact ⟨.error f, hm₂⟩

theorem Corresponds.inFrame {x : EvalM α} {y : EvalM β} (h : Corresponds t u R x y) (name : Bytes) :
    Corresponds t u R (EvalM.inFrame name x) (EvalM.inFrame name y) :=
  (corresponds_onStack (Stack.sameRun_pushNamed name)).bind fun _ _ _ =>
    h.thenAlways (corresponds_onStack (Stack.sameRun_popScope.mapError _))

section Names

variable (ht : t.names.Nodup) (hu : u.names.Nodup)
include ht hu

theorem corresponds_lookup {a b : Symbol} (hab : Interner.SameName t u a b) :
    Corresponds t u (Option.Rel (Value.Same t u)) (EvalM.lookup a) (EvalM.lookup b) := by
  intro m m' hm
  have hlookup : SameEnd (Option.Rel fun p q => p.1.Same t u q.1) (m.stack.lookup a)
      (m'.stack.lookup b) := by
    rw [Stack.lookup, Stack.lookup, hm.stack.height_eq, hm.stack.topPlace?_eq]
    exact hm.stack.lookupFrom ht hu hab _ _
  unfold EvalM.lookup
  generalize m.stack.lookup a = r, m'.stack.lookup b = r' at hlookup ⊢
  cases hlookup with
  | error d => exact ⟨.error _, hm⟩
  | ok hfound =>
    refine ⟨.ok ?_, hm⟩
    cases hfound with
    | none => exact .none
    | some hfound => exact .some hfound

theorem corresponds_bindSymbol {a b : Symbol} (hab : Interner.SameName t u a b) {v w : Value}
    (hvw : v.Same t u w) : Corresponds t u Eq (EvalM.bindSymbol a v) (EvalM.bindSymbol b w) :=
  corresponds_onStack (Stack.sameRun_bind ht hu hab hvw)

theorem corresponds_define (opts : EvalOptions) (source : Bytes) (span : Span) {a b : Symbol}
    (hab : Interner.SameName t u a b) {v w : Value} (hvw : v.Same t u w) :
    Corresponds t u (Value.Same t u) (define opts source span a v)
      (define opts source span b w) := by
  have hkind : v.kindText = w.kindText := by
    rw [Value.kindText, Value.kindText, hvw.kindCode]
  unfold define
  rw [hkind]
  refine (corresponds_bindSymbol ht hu hab hvw).bind fun _ _ _ => ?_
  cases opts.trace with
  | false => exact corresponds_value hvw
  | true =>
    refine (corresponds_ofExcept _).bind fun name _ hname => ?_
    subst hname
    exact (corresponds_reportTop opts _).bind fun _ _ _ => corresponds_value hvw

theorem corresponds_call (opts : EvalOptions) (span : Span) (index : Int) {vs ws : List Value}
    (h : Value.SameAll t u vs ws) :
    Corresponds t u (Value.Same t u) (call opts span index vs) (call opts span index ws) := by
  unfold call
  cases hf : Builtin.get? index with
  | none => exact corresponds_throw _
  | some f =>
    simp only [Builtin.apply_same hf h]
    cases happly : f.apply ws with
    | error why =>
      exact (corresponds_report opts _).bind fun _ _ _ => corresponds_fail _ _
    | ok v =>
      -- The value needs no names, so it is the same with any.
      have hknown := Builtin.known_of_apply hf happly .empty
      exact corresponds_pure
        (hknown.same.mono ⟨List.nil_prefix, fun _ => ht⟩ ⟨List.nil_prefix, fun _ => hu⟩)

end Names

/-! ### Evaluation -/

variable {opts : EvalOptions} {source : Bytes}

-- The recursion follows the first tree; the relation gives the second its shape.

mutual

theorem corresponds_eval (ht : t.names.Nodup) (hu : u.names.Nodup) :
    ∀ (e : Expr) {e' : Expr}, Expr.Same t u e e' →
      Corresponds t u (Value.Same t u) (e.eval opts source) (e'.eval opts source)
  | .bool span b, _, .bool _ _ =>
    (corresponds_value (v := .bool b) (w := .bool b) rfl).guarded opts span
  | .integer span n, _, .integer _ _ =>
    (corresponds_value (v := .integer n) (w := .integer n) rfl).guarded opts span
  | .nil span, _, .nil _ => (corresponds_value (v := .nil) (w := .nil) trivial).guarded opts span
  | .keyword span _, _, .keyword _ h =>
    (corresponds_value (v := .keyword _) (w := .keyword _) h).guarded opts span
  | .string span, _, .string _ => by
    refine Corresponds.guarded ((corresponds_ofExcept _).bind fun text _ htext => ?_) opts span
    subst htext
    exact corresponds_value (v := .string text) (w := .string text) rfl
  | .symbol span _, _, .symbol _ h => by
    refine Corresponds.guarded ((corresponds_lookup ht hu h).bind fun _ _ hfound => ?_) opts span
    cases hfound with
    | none => exact corresponds_fail _ _
    | some hfound => exact corresponds_value hfound
  | .vector span elems, _, .vector _ h =>
    ((corresponds_evalAll ht hu elems h).bind fun _ _ hvs =>
      corresponds_value (v := .vector _) (w := .vector _) hvs).guarded opts span
  | .list span [], _, .list _ .nil => (corresponds_fail _ _).guarded opts span
  | .list span (_ :: args), _, .list _ (.cons hhead hargs) => by
    have hdefine := corresponds_evalDefine ht hu span args hargs
    have hcond := corresponds_evalCond ht hu span args hargs
    have hlet := corresponds_evalLet ht hu span args hargs
    have hvalues := corresponds_evalAll ht hu args hargs
    cases hhead with
    | operator _ op =>
      cases op with
      | define => exact hdefine.guarded opts span
      | cond => exact hcond.guarded opts span
      | letStar => exact hlet.guarded opts span
      | unlisted _ => exact (corresponds_throw _).guarded opts span
    | symbol headSpan h =>
      refine Corresponds.guarded ((corresponds_lookup ht hu h).bind fun _ _ hfound => ?_) opts span
      cases hfound with
      | none => exact corresponds_fail _ _
      | @some v w hvw =>
        match v, w, hvw with
        | .function index, .function _, rfl =>
          exact hvalues.bind fun _ _ hvs => corresponds_call ht hu opts span index hvs
        | .nil, .nil, _ | .bool _, .bool _, _ | .integer _, .integer _, _
        | .keyword _, .keyword _, _ | .string _, .string _, _ | .vector _, .vector _, _
        | .unlisted _, .unlisted _, _ => exact corresponds_fail _ _
    | bool | integer | keyword | list | nil | string | vector | unlisted =>
      exact (corresponds_fail .expectedSymbol _).guarded opts span
  | .operator span op, _, .operator _ _ => (corresponds_throw _).guarded opts span
  | .unlisted span code, _, .unlisted _ _ => (corresponds_throw _).guarded opts span
termination_by structural e => e

theorem corresponds_evalAll (ht : t.names.Nodup) (hu : u.names.Nodup) :
    ∀ (es : List Expr) {es' : List Expr}, Expr.SameAll t u es es' →
      Corresponds t u (Value.SameAll t u) (evalAll opts source es) (evalAll opts source es')
  | [], _, .nil => corresponds_pure trivial
  | e :: es, _, .cons h hs =>
    (corresponds_eval ht hu e h).bind fun _ _ hv =>
      (corresponds_evalAll ht hu es hs).bind fun _ _ hvs => corresponds_pure ⟨hv, hvs⟩
termination_by structural es => es

theorem corresponds_evalDefine (ht : t.names.Nodup) (hu : u.names.Nodup) (span : Span) :
    ∀ (args : List Expr) {args' : List Expr}, Expr.SameAll t u args args' →
      Corresponds t u (Value.Same t u) (evalDefine opts source span args)
        (evalDefine opts source span args')
  | [], _, .nil => corresponds_fail _ _
  | [_], _, .cons h .nil | _ :: _ :: _ :: _, _, .cons h (.cons _ (.cons _ _)) => by
    cases h <;> exact corresponds_fail _ _
  | [_, e], _, .cons hname (.cons h .nil) => by
    have hvalue := corresponds_eval ht hu e h
    cases hname with
    | symbol nameSpan hname =>
      exact hvalue.bind fun _ _ hvw => corresponds_define ht hu opts source nameSpan hname hvw
    | bool | integer | keyword | list | nil | operator | string | vector | unlisted =>
      exact corresponds_fail _ _
termination_by structural args => args

theorem corresponds_evalCond (ht : t.names.Nodup) (hu : u.names.Nodup) (span : Span) :
    ∀ (args : List Expr) {args' : List Expr}, Expr.SameAll t u args args' →
      Corresponds t u (Value.Same t u) (evalCond opts source span args)
        (evalCond opts source span args')
  | [], _, .nil | [_], _, .cons _ .nil | [_, _], _, .cons _ (.cons _ .nil)
  | _ :: _ :: _ :: _ :: _, _, .cons _ (.cons _ (.cons _ (.cons _ _))) => corresponds_fail _ _
  | [test, yes, no], _, .cons htest (.cons hyes (.cons hno .nil)) => by
    have hyes := corresponds_eval ht hu yes hyes
    have hno := corresponds_eval ht hu no hno
    refine (corresponds_eval ht hu test htest).bind fun v w hvw => ?_
    rw [hvw.isTruthy]
    cases w.isTruthy with
    | true => exact hyes
    | false => exact hno
termination_by structural args => args

theorem corresponds_evalLet (ht : t.names.Nodup) (hu : u.names.Nodup) (span : Span) :
    ∀ (args : List Expr) {args' : List Expr}, Expr.SameAll t u args args' →
      Corresponds t u (Value.Same t u) (evalLet opts source span args)
        (evalLet opts source span args')
  | [], _, .nil => corresponds_fail _ _
  | [_], _, .cons h .nil | _ :: _ :: _ :: _, _, .cons h (.cons _ (.cons _ _)) => by
    cases h <;> exact corresponds_fail _ _
  | [.list _ elems, body], _, .cons (.list s helems) (.cons hbody .nil)
  | [.vector _ elems, body], _, .cons (.vector s helems) (.cons hbody .nil) => by
    have hbindings := corresponds_evalBindings ht hu elems helems
    have hbody := corresponds_eval ht hu body hbody
    rw [evalLet, evalLet, (Expr.sameAll_iff.1 helems).length_eq]
    split
    · exact corresponds_fail _ _
    · exact ((corresponds_reportTop opts _).bind fun _ _ _ =>
        hbindings.bind fun _ _ _ => hbody).inFrame _
  | [.bool _ _, _], _, .cons (.bool _ _) (.cons _ .nil)
  | [.integer _ _, _], _, .cons (.integer _ _) (.cons _ .nil)
  | [.keyword _ _, _], _, .cons (.keyword _ _) (.cons _ .nil)
  | [.symbol _ _, _], _, .cons (.symbol _ _) (.cons _ .nil)
  | [.nil _, _], _, .cons (.nil _) (.cons _ .nil)
  | [.operator _ _, _], _, .cons (.operator _ _) (.cons _ .nil)
  | [.string _, _], _, .cons (.string _) (.cons _ .nil)
  | [.unlisted _ _, _], _, .cons (.unlisted _ _) (.cons _ .nil) =>
    corresponds_fail _ _
termination_by structural args => args

theorem corresponds_evalBindings (ht : t.names.Nodup) (hu : u.names.Nodup) :
    ∀ (es : List Expr) {es' : List Expr}, Expr.SameAll t u es es' →
      Corresponds t u Eq (evalBindings opts source es) (evalBindings opts source es')
  | [], _, .nil => corresponds_pure rfl
  | [_], _, .cons h .nil => by cases h <;> exact corresponds_pure rfl
  | _ :: e :: rest, _, .cons hname (.cons h hrest) => by
    have hvalue := corresponds_eval ht hu e h
    have hrest := corresponds_evalBindings ht hu rest hrest
    cases hname with
    | symbol _ hname =>
      exact hvalue.bind fun _ _ hvw =>
        (corresponds_bindSymbol ht hu hname hvw).bind fun _ _ _ => hrest
    | bool | integer | keyword | list | nil | operator | string | vector | unlisted =>
      exact corresponds_fail _ _
termination_by structural es => es

end

end SpanLisp
