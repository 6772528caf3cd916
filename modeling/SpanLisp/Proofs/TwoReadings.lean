import SpanLisp.Proofs.ByName

/-! Reading one text with two interners gives the same trees but for the numbers of symbols, or the
same error. -/

namespace SpanLisp

/-- Both end with related results, or with the same error. -/
inductive SameEnd {ε α β : Type} (R : α → β → Prop) : Except ε α → Except ε β → Prop
  | ok {a : α} {b : β} (h : R a b) : SameEnd R (.ok a) (.ok b)
  | error (e : ε) : SameEnd R (.error e) (.error e)

theorem SameEnd.map {ε α β α' β' : Type} {R : α → β → Prop} {S : α' → β' → Prop} {f : α → α'}
    {g : β → β'} (hfg : ∀ a b, R a b → S (f a) (g b)) {r : Except ε α} {r' : Except ε β}
    (h : SameEnd R r r') : SameEnd S (r.map f) (r'.map g) := by
  cases h with
  | ok h => exact .ok (hfg _ _ h)
  | error e => exact .error e

theorem SameEnd.mapError {ε ε' α β : Type} {R : α → β → Prop} {r : Except ε α} {r' : Except ε β}
    (h : SameEnd R r r') (f : ε → ε') : SameEnd R (r.mapError f) (r'.mapError f) := by
  cases h with
  | ok h => exact .ok h
  | error e => exact .error (f e)

theorem SameEnd.map_eq {ε α β γ : Type} {R : α → β → Prop} {f : α → γ} {g : β → γ}
    (hfg : ∀ a b, R a b → f a = g b) {r : Except ε α} {r' : Except ε β} (h : SameEnd R r r') :
    r.map f = r'.map g := by
  cases h with
  | ok h => exact congrArg Except.ok (hfg _ _ h)
  | error e => rfl

theorem SameEnd.ok_left {ε α β : Type} {R : α → β → Prop} {r : Except ε α} {r' : Except ε β}
    (h : SameEnd R r r') {a : α} (hr : r = .ok a) : ∃ b, r' = .ok b := by
  cases h with
  | ok _ => exact ⟨_, rfl⟩
  | error e => cases hr

theorem SameEnd.error_left {ε α β : Type} {R : α → β → Prop} {r : Except ε α} {r' : Except ε β}
    (h : SameEnd R r r') {e : ε} (hr : r = .error e) : r' = .error e := by
  cases h with
  | ok _ => cases hr
  | error e => cases hr; rfl

/-! ### Trees -/

/-- A syntax tree with its symbols spelled out. -/
inductive Spelled where
  | bool (span : Span) (b : Bool)
  | integer (span : Span) (n : Int64)
  | keyword (span : Span) (name : Bytes)
  | list (span : Span) (elems : List Spelled)
  | nil (span : Span)
  | operator (span : Span) (op : Operator)
  | string (span : Span)
  | symbol (span : Span) (name : Bytes)
  | vector (span : Span) (elems : List Spelled)
  | unlisted (span : Span) (code : Int)

namespace Expr

mutual

/-- Spells the symbols of a tree. -/
def spell (names : Interner) : Expr → Spelled
  | bool span b => .bool span b
  | integer span n => .integer span n
  | keyword span sym => .keyword span (Value.symbolText names sym)
  | list span elems => .list span (spellAll names elems)
  | nil span => .nil span
  | operator span op => .operator span op
  | string span => .string span
  | symbol span sym => .symbol span (Value.symbolText names sym)
  | vector span elems => .vector span (spellAll names elems)
  | unlisted span code => .unlisted span code

/-- Spells the symbols of several trees. -/
def spellAll (names : Interner) : List Expr → List Spelled
  | [] => []
  | x :: xs => spell names x :: spellAll names xs

end

mutual

/-- The trees are the same but for the numbers of symbols, which have the same names. -/
inductive Same (t u : Interner) : Expr → Expr → Prop
  | bool (span : Span) (b : Bool) : Same t u (.bool span b) (.bool span b)
  | integer (span : Span) (n : Int64) : Same t u (.integer span n) (.integer span n)
  | keyword (span : Span) {a b : Symbol} (h : Interner.SameName t u a b) :
      Same t u (.keyword span a) (.keyword span b)
  | list (span : Span) {xs ys : List Expr} (h : SameAll t u xs ys) :
      Same t u (.list span xs) (.list span ys)
  | nil (span : Span) : Same t u (.nil span) (.nil span)
  | operator (span : Span) (op : Operator) : Same t u (.operator span op) (.operator span op)
  | string (span : Span) : Same t u (.string span) (.string span)
  | symbol (span : Span) {a b : Symbol} (h : Interner.SameName t u a b) :
      Same t u (.symbol span a) (.symbol span b)
  | vector (span : Span) {xs ys : List Expr} (h : SameAll t u xs ys) :
      Same t u (.vector span xs) (.vector span ys)
  | unlisted (span : Span) (code : Int) : Same t u (.unlisted span code) (.unlisted span code)

/-- The trees are the same in pairs. -/
inductive SameAll (t u : Interner) : List Expr → List Expr → Prop
  | nil : SameAll t u [] []
  | cons {x y : Expr} {xs ys : List Expr} (h : Same t u x y) (hs : SameAll t u xs ys) :
      SameAll t u (x :: xs) (y :: ys)

end

variable {t u t' u' : Interner}

mutual

theorem Same.mono (ht : t.Extends t') (hu : u.Extends u') :
    ∀ {x y : Expr}, Same t u x y → Same t' u' x y
  | _, _, .bool span b => .bool span b
  | _, _, .integer span n => .integer span n
  | _, _, .keyword span h => .keyword span (h.mono ht hu)
  | _, _, .list span h => .list span (h.mono ht hu)
  | _, _, .nil span => .nil span
  | _, _, .operator span op => .operator span op
  | _, _, .string span => .string span
  | _, _, .symbol span h => .symbol span (h.mono ht hu)
  | _, _, .vector span h => .vector span (h.mono ht hu)
  | _, _, .unlisted span code => .unlisted span code

theorem SameAll.mono (ht : t.Extends t') (hu : u.Extends u') :
    ∀ {xs ys : List Expr}, SameAll t u xs ys → SameAll t' u' xs ys
  | _, _, .nil => .nil
  | _, _, .cons h hs => .cons (h.mono ht hu) (hs.mono ht hu)

end

mutual

theorem Same.spell : ∀ {x y : Expr}, Same t u x y → x.spell t = y.spell u
  | _, _, .bool _ _ | _, _, .integer _ _ | _, _, .nil _ | _, _, .operator _ _ | _, _, .string _
  | _, _, .unlisted _ _ => rfl
  | _, _, .keyword _ ⟨_, ha, hb⟩ => by
    rw [Expr.spell, Expr.spell, Value.symbolText_of_name? ha, Value.symbolText_of_name? hb]
  | _, _, .symbol _ ⟨_, ha, hb⟩ => by
    rw [Expr.spell, Expr.spell, Value.symbolText_of_name? ha, Value.symbolText_of_name? hb]
  | _, _, .list _ h => by rw [Expr.spell, Expr.spell, h.spellAll]
  | _, _, .vector _ h => by rw [Expr.spell, Expr.spell, h.spellAll]

theorem SameAll.spellAll : ∀ {xs ys : List Expr}, SameAll t u xs ys →
    Expr.spellAll t xs = Expr.spellAll u ys
  | _, _, .nil => rfl
  | _, _, .cons h hs => by rw [Expr.spellAll, Expr.spellAll, h.spell, hs.spellAll]

end

theorem sameAll_iff {xs ys : List Expr} : SameAll t u xs ys ↔ List.Forall₂ (Same t u) xs ys := by
  constructor
  · intro h
    induction xs generalizing ys with
    | nil =>
      cases h
      exact .nil
    | cons x xs ih =>
      cases h with
      | cons h hs => exact .cons h (ih hs)
  · intro h
    induction h with
    | nil => exact .nil
    | cons h _ ih => exact .cons h ih

theorem SameAll.reverse {xs ys : List Expr} (h : SameAll t u xs ys) :
    SameAll t u xs.reverse ys.reverse :=
  sameAll_iff.2 (List.forall₂_reverse_iff.2 (sameAll_iff.1 h))

theorem SameAll.isEmpty_eq {xs ys : List Expr} (h : SameAll t u xs ys) :
    xs.isEmpty = ys.isEmpty := by
  cases h <;> rfl

end Expr

namespace Parser

/-! ### States -/

/-- The open sequences are the same. -/
structure Pending.Same (t u : Interner) (p q : Pending) : Prop where
  delim_eq : p.delim = q.delim
  lo_eq : p.lo = q.lo
  elems : Expr.SameAll t u p.elems q.elems

/-- What has been read is the same, each state with its own interner. -/
structure State.Same (st st' : State) : Prop where
  pending : List.Forall₂ (Pending.Same st.names st'.names) st.pending st'.pending
  complete : Expr.SameAll st.names st'.names st.complete st'.complete

variable {st st' : State} {mode : Mode} {limit : Nat}

theorem Pending.Same.mono {t u t' u' : Interner} (ht : t.Extends t') (hu : u.Extends u')
    {p q : Pending} (h : p.Same t u q) : p.Same t' u' q :=
  ⟨h.delim_eq, h.lo_eq, h.elems.mono ht hu⟩

theorem State.Same.withNames (h : st.Same st') {t u : Interner} (ht : st.names.Extends t)
    (hu : st'.names.Extends u) : State.Same { st with names := t } { st' with names := u } :=
  ⟨h.pending.imp fun _ _ hp => hp.mono ht hu, h.complete.mono ht hu⟩

theorem State.Same.lineIsOver (h : st.Same st') (mode : Mode) :
    st.lineIsOver mode = st'.lineIsOver mode := by
  have hpending : st.pending.isEmpty = st'.pending.isEmpty := by
    rw [Bool.eq_iff_iff, List.isEmpty_iff_length_eq_zero, List.isEmpty_iff_length_eq_zero,
      h.pending.length_eq]
  rw [State.lineIsOver, State.lineIsOver, hpending, h.complete.isEmpty_eq]

theorem State.Same.atHead (h : st.Same st') : st.atHead = st'.atHead := by
  obtain ⟨pending, complete, names⟩ := st
  obtain ⟨pending', complete', names'⟩ := st'
  have hpending := h.pending
  cases hpending with
  | nil => rfl
  | @cons p q ps qs hp _ =>
    obtain ⟨d, lo, elems⟩ := p
    obtain ⟨d', lo', elems'⟩ := q
    obtain ⟨rfl, rfl, helems⟩ := hp
    cases helems with
    | nil => cases d <;> rfl
    | cons => cases d <;> rfl

theorem State.Same.add (h : st.Same st') {e e' : Expr}
    (he : Expr.Same st.names st'.names e e') : (st.add e).Same (st'.add e') := by
  obtain ⟨pending, complete, names⟩ := st
  obtain ⟨pending', complete', names'⟩ := st'
  obtain ⟨hpending, hcomplete⟩ := h
  cases hpending with
  | nil => exact ⟨.nil, .cons he hcomplete⟩
  | cons hp hps => exact ⟨.cons ⟨hp.delim_eq, hp.lo_eq, .cons he hp.elems⟩ hps, hcomplete⟩

/-! ### Reading -/

theorem same_word (span : Span) (text : Bytes) (t u : Interner) :
    Expr.Same (word span text t).2 (word span text u).2 (word span text t).1
      (word span text u).1 := by
  unfold word
  split_ifs
  · exact .bool span true
  · exact .bool span false
  · exact .nil span
  · split
    · exact .keyword span (Interner.sameName_intern t u _)
    · exact .symbol span (Interner.sameName_intern t u _)

theorem same_wordAt (head : Bool) (span : Span) (text : Bytes) (t u : Interner) :
    Expr.Same (wordAt head span text t).2 (wordAt head span text u).2 (wordAt head span text t).1
      (wordAt head span text u).1 := by
  unfold wordAt
  split
  · exact .operator span _
  · exact same_word span text t u

theorem same_sequence {t u : Interner} (d : Delim) (span : Span) {xs ys : List Expr}
    (h : Expr.SameAll t u xs ys) : Expr.Same t u (sequence d span xs) (sequence d span ys) := by
  unfold sequence
  split_ifs
  · exact .list span h
  · exact .vector span h

/-- One token does the same to both states, or both refuse it. -/
theorem same_step (h : st.Same st') (tok : Token) :
    SameEnd State.Same (step mode limit st tok) (step mode limit st' tok) := by
  by_cases hblank : tok.kind = .blank
  · rw [step, step, if_pos hblank, if_pos hblank]
    exact .ok h
  rw [step, step, if_neg hblank, if_neg hblank, ← h.lineIsOver mode]
  by_cases hover : st.lineIsOver mode = true
  · rw [if_pos hover, if_pos hover]
    exact .error _
  rw [if_neg hover, if_neg hover]
  cases hkind : tok.kind with
  | blank => exact absurd hkind hblank
  | integer =>
    simp only [integer]
    split_ifs
    · exact .ok (h.add (.integer _ _))
    · exact .error _
  | string => exact .ok (h.add (.string _))
  | symbol =>
    have hword := same_wordAt st.atHead tok.span tok.text st.names st'.names
    have ht := extends_wordAt st.atHead tok.span tok.text st.names
    have hu := extends_wordAt st.atHead tok.span tok.text st'.names
    rw [← h.atHead]
    exact .ok ((h.withNames ht hu).add hword)
  | opening d =>
    simp only [← h.pending.length_eq]
    split_ifs
    · exact .error _
    · exact .error _
    · exact .ok ⟨.cons ⟨rfl, rfl, .nil⟩ h.pending, h.complete⟩
  | closing d =>
    obtain ⟨pending, complete, names⟩ := st
    obtain ⟨pending', complete', names'⟩ := st'
    obtain ⟨hpending, hcomplete⟩ := h
    cases hpending with
    | nil => exact .error _
    | @cons p q ps qs hp hps =>
      simp only [← hp.delim_eq, ← hp.lo_eq]
      split_ifs
      · exact .error _
      · have hrest : State.Same ⟨ps, complete, names⟩ ⟨qs, complete', names'⟩ := ⟨hps, hcomplete⟩
        exact .ok (hrest.add (same_sequence p.delim _ hp.elems.reverse))

theorem same_finish (h : st.Same st') (size : Nat) (failure : Option SyntaxError) :
    SameEnd (Expr.SameAll st.names st'.names) (finish mode size failure st)
      (finish mode size failure st') := by
  unfold finish
  cases failure with
  | some e =>
    rw [h.lineIsOver mode]
    exact .error _
  | none =>
    obtain ⟨pending, complete, names⟩ := st
    obtain ⟨pending', complete', names'⟩ := st'
    obtain ⟨hpending, hcomplete⟩ := h
    cases hpending with
    | nil => exact .ok hcomplete.reverse
    | cons => exact .error _

/-- A run over the tokens does the same to both states. -/
theorem same_run (size : Nat) (failure : Option SyntaxError) :
    ∀ {ts : List Token} {st st' : State}, st.Same st' →
      SameEnd
        (Expr.SameAll (run mode limit size failure ts st).2 (run mode limit size failure ts st').2)
        (run mode limit size failure ts st).1 (run mode limit size failure ts st').1
  | [], _, _, h => same_finish h size failure
  | tok :: ts, st, st', h => by
    have hstep : SameEnd State.Same (step mode limit st tok) (step mode limit st' tok) :=
      same_step h tok
    rw [run, run]
    generalize step mode limit st tok = r, step mode limit st' tok = r' at hstep ⊢
    cases hstep with
    | ok hσ => exact same_run size failure hσ
    | error e => exact .error e

theorem same_parse (mode : Mode) (limit : Nat) (text : Bytes) (t u : Interner) :
    SameEnd (Expr.SameAll (parse mode limit text t).2 (parse mode limit text u).2)
      (parse mode limit text t).1 (parse mode limit text u).1 :=
  same_run text.length (tokens text).2 ⟨.nil, .nil⟩

end Parser

theorem same_parseLine (limit : Nat) (text : Bytes) (t u : Interner) :
    SameEnd (Expr.Same (parseLine limit text t).2 (parseLine limit text u).2)
      (parseLine limit text t).1 (parseLine limit text u).1 := by
  refine (Parser.same_parse .line limit text t u).map fun es es' h => ?_
  cases h with
  | nil => exact .nil _
  | cons h _ => exact h

end SpanLisp
