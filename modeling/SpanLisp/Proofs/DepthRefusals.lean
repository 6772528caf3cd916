import SpanLisp.Proofs.Addresses
import SpanLisp.Proofs.DepthLimits
import SpanLisp.Proofs.JoinedScripts
import SpanLisp.Proofs.LineAndScript

/-!
# Where depth is refused

The parser counts open delimiters and the evaluator counts evaluations in progress, under one limit.
An evaluation that is refused for its depth stands below at least `limit` sequences, and below more
if one of them is the binding list of a `let*`, which is not evaluated itself (`refuses_eval`).  The
parser lets no node below more than `limit` sequences, and no sequence below that many
(`depth_le_of_parse`).  So what is refused is an atom below `limit` sequences exactly, none of them
a binding list, and a text without such an atom is not refused at all.
-/

namespace SpanLisp

/-! ### Binding lists -/

namespace Expr

/-- The way down to a node leads through the binding list of a `let*`: past the list that the form
consists of and into its second element. -/
def ThroughBindings (e : Expr) (addr : List Nat) : Prop :=
  ∃ before after span head rest, addr = before ++ 1 :: after ∧ after ≠ [] ∧
    e.at? before = some (.list span (.operator head .letStar :: rest))

theorem not_throughBindings_nil (e : Expr) : ¬ e.ThroughBindings [] := by
  rintro ⟨before, after, -, -, -, haddr, -, -⟩
  simp at haddr

theorem ThroughBindings.of_cons {e x : Expr} {i : Nat} {addr : List Nat}
    (h : e.ThroughBindings (i :: addr)) (hx : e.elems[i]? = some x)
    (hbody : i = 1 → ∀ span head rest, e ≠ .list span (.operator head .letStar :: rest)) :
    x.ThroughBindings addr := by
  obtain ⟨before, after, span, head, rest, haddr, hafter, hlet⟩ := h
  cases before with
  | nil =>
    obtain ⟨rfl, -⟩ := List.cons.inj haddr
    exact absurd (Option.some.inj hlet) (hbody rfl span head rest)
  | cons j before =>
    obtain ⟨rfl, rfl⟩ := List.cons.inj haddr
    obtain ⟨y, hy, hlet⟩ := at?_cons_iff.1 hlet
    cases hx.symm.trans hy
    exact ⟨before, after, span, head, rest, rfl, hafter, hlet⟩

/-- Somewhere below the expression there is a node at `span`, deep enough for its evaluation to be
refused when that of the expression starts with `depth` evaluations in progress. -/
def Deep (limit : Nat) (e : Expr) (depth : Nat) (span : Span) : Prop :=
  ∃ addr n, e.at? addr = some n ∧ n.span = span ∧ limit ≤ depth + addr.length ∧
    (e.ThroughBindings addr → limit < depth + addr.length)

/-- One of the expressions has such a node. -/
def DeepAmong (limit : Nat) (es : List Expr) (depth : Nat) (span : Span) : Prop :=
  ∃ (i : Nat) (e : Expr), es[i]? = some e ∧ Deep limit e depth span

theorem deep_self {limit depth : Nat} (h : limit ≤ depth) (e : Expr) :
    Deep limit e depth e.span :=
  ⟨[], e, rfl, rfl, h, fun hlet => absurd hlet (not_throughBindings_nil e)⟩

variable {limit depth : Nat} {span : Span} {e x : Expr} {es : List Expr}

/-- An element is one step deeper than its sequence. -/
theorem Deep.of_element (h : Deep limit x (depth + 1) span) {i : Nat} (hx : e.elems[i]? = some x)
    (hbody : i = 1 → ∀ span head rest, e ≠ .list span (.operator head .letStar :: rest)) :
    Deep limit e depth span := by
  obtain ⟨addr, n, hn, hspan, hdeep, hthrough⟩ := h
  refine ⟨i :: addr, n, at?_cons_iff.2 ⟨x, hx, hn⟩, hspan, ?_, fun hlet => ?_⟩
  · rw [List.length_cons]
    omega
  · have hlt := hthrough (hlet.of_cons hx hbody)
    rw [List.length_cons]
    omega

/-- An element of a binding list is two steps deeper than the `let*`, with one evaluation between
them. -/
theorem Deep.of_binding (h : Deep limit x (depth + 1) span) {bindings : Expr} {i j : Nat}
    (hb : e.elems[j]? = some bindings) (hx : bindings.elems[i]? = some x) :
    Deep limit e depth span := by
  obtain ⟨addr, n, hn, hspan, hdeep, -⟩ := h
  refine ⟨j :: i :: addr, n, at?_cons_iff.2 ⟨bindings, hb, at?_cons_iff.2 ⟨x, hx, hn⟩⟩, hspan, ?_,
    fun _ => ?_⟩
  · simp only [List.length_cons]
    omega
  · simp only [List.length_cons]
    omega

theorem DeepAmong.head (h : Deep limit e depth span) (es : List Expr) :
    DeepAmong limit (e :: es) depth span :=
  ⟨0, e, rfl, h⟩

theorem DeepAmong.tail (h : DeepAmong limit es depth span) (e : Expr) :
    DeepAmong limit (e :: es) depth span := by
  obtain ⟨i, x, hx, hdeep⟩ := h
  exact ⟨i + 1, x, hx, hdeep⟩

/-- The elements of a sequence that is no `let*` are one step deeper than it. -/
theorem DeepAmong.of_elems (h : DeepAmong limit es (depth + 1) span) (he : e.elems = es)
    (hlet : ∀ span head rest, e ≠ .list span (.operator head .letStar :: rest)) :
    Deep limit e depth span := by
  obtain ⟨i, x, hx, hdeep⟩ := h
  rw [← he] at hx
  exact hdeep.of_element hx fun _ => hlet

/-- The arguments of a form other than `let*` are one step deeper than it. -/
theorem DeepAmong.of_args {s : Span} {head : Expr} (h : DeepAmong limit es (depth + 1) span)
    (hhead : ∀ s', head ≠ .operator s' .letStar) :
    Deep limit (.list s (head :: es)) depth span := by
  refine (h.tail head).of_elems rfl fun s' head' rest heq => ?_
  cases heq
  exact hhead head' rfl

end Expr

/-! ### Computations -/

open SpanLisp.Expr

/-- The computation is refused for its depth only where `D` says, given the number of evaluations
in progress, which it leaves as it was. -/
def RefusesOnly {α : Type} (D : Nat → Span → Prop) (x : EvalM α) : Prop :=
  ∀ m, (x m).2.depth = m.depth ∧
    ∀ span, (x m).1 = .error (.failed ⟨.depthExceeded, span⟩) → D m.depth span

variable {α β : Type} {D D' : Nat → Span → Prop}

/-- What counts no evaluation is refused nowhere. -/
theorem Transparent.refusesOnly {x : EvalM α} (h : ∀ limit, Transparent limit 0 x x) :
    RefusesOnly D x := by
  intro m
  obtain ⟨hdepth, -, hdeep, -⟩ := h m.depth m
  exact ⟨hdepth, fun span hspan => absurd (hdeep ⟨span, hspan⟩) (Nat.lt_irrefl _)⟩

theorem RefusesOnly.mono {x : EvalM α} (h : RefusesOnly D x)
    (himp : ∀ depth span, D depth span → D' depth span) : RefusesOnly D' x :=
  fun m => ⟨(h m).1, fun span hspan => himp _ _ ((h m).2 span hspan)⟩

theorem RefusesOnly.bind {x : EvalM α} {f : α → EvalM β} (hx : RefusesOnly D x)
    (hf : ∀ a, RefusesOnly D (f a)) : RefusesOnly D (x >>= f) := by
  intro m
  have h := hx m
  rcases hxm : x m with ⟨r, m'⟩
  rw [hxm] at h
  cases r with
  | error f =>
    rw [EvalM.bind_of_error hxm]
    refine ⟨h.1, fun span hspan => h.2 span ?_⟩
    cases hspan
    rfl
  | ok a =>
    rw [EvalM.bind_of_ok hxm]
    obtain ⟨hdepth, hdeep⟩ := hf a m'
    rw [h.1] at hdepth hdeep
    exact ⟨hdepth, hdeep⟩

theorem refusesOnly_onStack (x : StackM Defect α) : RefusesOnly D (EvalM.onStack x) := by
  refine fun m => ⟨rfl, fun span hspan => ?_⟩
  unfold EvalM.onStack at hspan
  cases h : (x m.stack).1 with
  | ok a =>
    rw [h] at hspan
    cases hspan
  | error d =>
    rw [h] at hspan
    cases hspan

theorem RefusesOnly.thenAlways {x : EvalM α} {y : EvalM Unit} (hx : RefusesOnly D x)
    (hy : RefusesOnly D y) : RefusesOnly D (EvalM.thenAlways x y) := by
  intro m
  obtain ⟨hdepth, hdeep⟩ := hx m
  obtain ⟨hdepth', hdeep'⟩ := hy (x m).2
  rw [hdepth] at hdepth' hdeep'
  rcases hym : y (x m).2 with ⟨r, m'⟩
  rw [hym] at hdepth' hdeep'
  cases r with
  | ok _ =>
    rw [EvalM.thenAlways_of_ok hym]
    exact ⟨hdepth', hdeep⟩
  | error f =>
    rw [EvalM.thenAlways_of_error hym]
    refine ⟨hdepth', fun span hspan => hdeep' span ?_⟩
    cases hspan
    rfl

theorem RefusesOnly.inFrame {x : EvalM α} (h : RefusesOnly D x) (name : Bytes) :
    RefusesOnly D (EvalM.inFrame name x) :=
  (refusesOnly_onStack _).bind fun _ => h.thenAlways (refusesOnly_onStack _)

/-- An evaluation is refused itself at the limit, or something in it is, with one more evaluation in
progress. -/
theorem RefusesOnly.guarded {opts : EvalOptions} {e : Expr} {x : EvalM α}
    (h : RefusesOnly D x) (himp : ∀ depth span, D (depth + 1) span →
      Deep opts.limit e depth span) :
    RefusesOnly (Deep opts.limit e) (EvalM.guarded opts e.span x) := by
  intro m
  unfold EvalM.guarded
  by_cases hover : 0 < opts.limit ∧ opts.limit < m.depth + 1
  · simp only [if_pos hover]
    refine ⟨rfl, fun span hspan => ?_⟩
    cases hspan
    exact deep_self (Nat.lt_succ_iff.1 hover.2) e
  · obtain ⟨hdepth, hdeep⟩ := h { m with depth := m.depth + 1 }
    simp only [if_neg hover]
    refine ⟨?_, fun span hspan => himp _ _ (hdeep span hspan)⟩
    simp only [hdepth, Nat.add_sub_cancel]

/-- Refused nowhere. -/
def nowhere (_ : Nat) (_ : Span) : Prop := False

/-- An evaluation that starts no other can only be refused itself. -/
theorem RefusesOnly.atom {opts : EvalOptions} {x : EvalM α} (e : Expr)
    (h : RefusesOnly nowhere x) : RefusesOnly (Deep opts.limit e) (EvalM.guarded opts e.span x) :=
  h.guarded fun _ _ hnowhere => hnowhere.elim

theorem refusesOnly_pure (a : α) : RefusesOnly D (pure a : EvalM α) :=
  Transparent.refusesOnly fun _ => transparent_pure a

theorem refusesOnly_defect (d : Defect) : RefusesOnly D (EvalM.throw (.defect d) : EvalM α) :=
  Transparent.refusesOnly fun _ => transparent_defect d

theorem refusesOnly_fail {kind : EvalError.Kind} (hkind : kind ≠ .depthExceeded) (span : Span) :
    RefusesOnly D (EvalM.fail kind span : EvalM α) :=
  Transparent.refusesOnly fun _ => transparent_fail hkind span

/-! ### Evaluation -/

/-- The body of a `let*`, or an element of its binding list, has a node deep enough. -/
def DeepInLet (limit : Nat) (args : List Expr) (depth : Nat) (span : Span) : Prop :=
  (∃ body, args[1]? = some body ∧ Deep limit body depth span) ∨
    ∃ bindings, args[0]? = some bindings ∧ DeepAmong limit bindings.elems depth span

theorem DeepInLet.deep {limit depth : Nat} {args : List Expr} {span s head : Span}
    (h : DeepInLet limit args (depth + 1) span) :
    Deep limit (.list s (.operator head .letStar :: args)) depth span := by
  rcases h with ⟨body, hbody, hdeep⟩ | ⟨bindings, hbindings, i, x, hx, hdeep⟩
  · exact hdeep.of_element (i := 2) hbody fun h => absurd h (by decide)
  · exact hdeep.of_binding (j := 1) hbindings hx

variable {opts : EvalOptions} {source : Bytes}

mutual

/-- An evaluation is refused for its depth only at a node that is deep enough for it. -/
theorem refuses_eval : ∀ e : Expr, RefusesOnly (Deep opts.limit e) (e.eval opts source)
  | .bool _ _ | .integer _ _ | .nil _ | .keyword _ _ => .atom _ (refusesOnly_pure _)
  | .string _ => .atom _
      ((Transparent.refusesOnly fun _ => transparent_ofExcept _).bind fun _ => refusesOnly_pure _)
  | .symbol span sym => by
    refine .atom _ ((Transparent.refusesOnly fun _ => transparent_lookup sym).bind fun found => ?_)
    cases found with
    | none => exact refusesOnly_fail (by decide) span
    | some v => exact refusesOnly_pure v
  | .vector _ elems =>
    .guarded ((refuses_evalAll elems).bind fun _ => refusesOnly_pure _)
      fun _ _ h => h.of_elems rfl fun _ _ _ heq => by cases heq
  | .list span [] => .atom _ (refusesOnly_fail (by decide) span)
  | .list span (.operator s .define :: args) =>
    .guarded (refuses_evalDefine span args) fun _ _ h => h.of_args fun _ heq => by cases heq
  | .list span (.operator s .cond :: args) =>
    .guarded (refuses_evalCond span args) fun _ _ h => h.of_args fun _ heq => by cases heq
  | .list span (.operator s .letStar :: args) =>
    .guarded (refuses_evalLet span args) fun _ _ h => h.deep
  | .list _ (.operator _ (.unlisted _) :: _) => .atom _ (refusesOnly_defect _)
  | .list span (.symbol headSpan sym :: args) => by
    refine .guarded (D := DeepAmong opts.limit args)
      ((Transparent.refusesOnly fun _ => transparent_lookup sym).bind fun found => ?_)
      fun _ _ h => h.of_args fun _ heq => by cases heq
    cases found with
    | none => exact refusesOnly_fail (by decide) headSpan
    | some v =>
      cases v with
      | function index =>
        exact (refuses_evalAll args).bind fun vs =>
          Transparent.refusesOnly fun _ => transparent_call opts span index vs
      | nil | bool | integer | keyword | string | vector | unlisted =>
        exact refusesOnly_fail (by decide) headSpan
  | .list _ (.bool _ _ :: _) | .list _ (.integer _ _ :: _) | .list _ (.keyword _ _ :: _)
  | .list _ (.list _ _ :: _) | .list _ (.nil _ :: _) | .list _ (.string _ :: _)
  | .list _ (.vector _ _ :: _) | .list _ (.unlisted _ _ :: _) =>
    .atom _ (refusesOnly_fail (by decide) _)
  | .operator _ _ | .unlisted _ _ => .atom _ (refusesOnly_defect _)

theorem refuses_evalAll : ∀ es : List Expr,
    RefusesOnly (DeepAmong opts.limit es) (evalAll opts source es)
  | [] => refusesOnly_pure []
  | e :: es =>
    ((refuses_eval e).mono fun _ _ h => .head h es).bind fun _ =>
      ((refuses_evalAll es).mono fun _ _ h => h.tail e).bind fun _ => refusesOnly_pure _

theorem refuses_evalDefine (span : Span) : ∀ args : List Expr,
    RefusesOnly (DeepAmong opts.limit args) (evalDefine opts source span args)
  | [] => refusesOnly_fail (by decide) _
  | [x] | x :: _ :: _ :: _ => by cases x <;> exact refusesOnly_fail (by decide) _
  | [.symbol s sym, e] =>
    ((refuses_eval e).mono fun _ _ h => (DeepAmong.head h []).tail _).bind fun v =>
      Transparent.refusesOnly fun _ => transparent_define opts source s sym v
  | [.bool _ _, _] | [.integer _ _, _] | [.keyword _ _, _] | [.list _ _, _]
  | [.nil _, _] | [.operator _ _, _] | [.string _, _] | [.vector _ _, _]
  | [.unlisted _ _, _] => refusesOnly_fail (by decide) _

theorem refuses_evalCond (span : Span) : ∀ args : List Expr,
    RefusesOnly (DeepAmong opts.limit args) (evalCond opts source span args)
  | [] | [_] | [_, _] | _ :: _ :: _ :: _ :: _ => refusesOnly_fail (by decide) _
  | [test, yes, no] => by
    refine ((refuses_eval test).mono fun _ _ h => .head h _).bind fun v => ?_
    cases v.isTruthy with
    | true => exact (refuses_eval yes).mono fun _ _ h => (DeepAmong.head h _).tail _
    | false => exact (refuses_eval no).mono fun _ _ h => ((DeepAmong.head h _).tail _).tail _

theorem refuses_evalLet (span : Span) : ∀ args : List Expr,
    RefusesOnly (DeepInLet opts.limit args) (evalLet opts source span args)
  | [] => refusesOnly_fail (by decide) _
  | [x] | x :: _ :: _ :: _ => by cases x <;> exact refusesOnly_fail (by decide) _
  | [.list s elems, body] | [.vector s elems, body] => by
    rw [evalLet]
    by_cases hodd : elems.length % 2 ≠ 0
    · rw [if_pos hodd]
      exact refusesOnly_fail (by decide) s
    rw [if_neg hodd]
    refine ((Transparent.refusesOnly fun _ => transparent_topFrame).bind fun _ =>
      (Transparent.refusesOnly fun _ => transparent_report opts _).bind fun _ =>
        RefusesOnly.bind ?_ fun _ => ?_).inFrame _
    · exact (refuses_evalBindings elems).mono fun _ _ h => .inr ⟨_, rfl, h⟩
    · exact (refuses_eval body).mono fun _ _ h => .inl ⟨body, rfl, h⟩
  | [.bool _ _, _] | [.integer _ _, _] | [.keyword _ _, _] | [.symbol _ _, _]
  | [.nil _, _] | [.operator _ _, _] | [.string _, _] | [.unlisted _ _, _] =>
    refusesOnly_fail (by decide) _

theorem refuses_evalBindings : ∀ es : List Expr,
    RefusesOnly (DeepAmong opts.limit es) (evalBindings opts source es)
  | [] => refusesOnly_pure ()
  | [x] => by cases x <;> exact refusesOnly_pure ()
  | .symbol s sym :: e :: rest =>
    ((refuses_eval e).mono fun _ _ h => (DeepAmong.head h rest).tail _).bind fun v =>
      (Transparent.refusesOnly fun _ => transparent_bindSymbol sym v).bind fun _ =>
        (refuses_evalBindings rest).mono fun _ _ h => (h.tail e).tail _
  | .bool _ _ :: _ :: _ | .integer _ _ :: _ :: _ | .keyword _ _ :: _ :: _
  | .list _ _ :: _ :: _ | .nil _ :: _ :: _ | .operator _ _ :: _ :: _
  | .string _ :: _ :: _ | .vector _ _ :: _ :: _ | .unlisted _ _ :: _ :: _ =>
    refusesOnly_fail (by decide) _

end

theorem refuses_evalEach : ∀ (es : List Expr) (last : Value),
    RefusesOnly (DeepAmong opts.limit es) (Session.evalEach opts source last es)
  | [], last => refusesOnly_pure last
  | e :: es, _ =>
    ((refuses_eval e).mono fun _ _ h => .head h es).bind fun v =>
      (refuses_evalEach es v).mono fun _ _ h => h.tail e

/-! ### Reading -/

namespace Parser

variable {mode : Mode} {limit : Nat} {st st' : State} {t : Token}

theorem State.length_pending_add (st : State) (e : Expr) :
    (st.add e).pending.length = st.pending.length := by
  rw [← State.length_delims, State.delims_add, State.length_delims]

/-- The open sequences are those that the delimiters read so far leave open. -/
theorem Reads.raises (h : Reads mode limit st t st') {w : List Token.Kind}
    (hw : Raises st.pending.length w) : Raises st'.pending.length (w ++ delimiters [t]) := by
  rw [delimiters_cons]
  cases h with
  | blank hk =>
    rw [hk]
    simpa [delimiters, Token.Kind.isDelimiter] using hw
  | integer hk | string hk | word hk =>
    rw [hk, State.length_pending_add]
    simpa [delimiters, Token.Kind.isDelimiter] using hw
  | opening d hk =>
    rw [hk]
    exact hw.append (raises_opening d)
  | closing p ps hp hk =>
    rw [hk, State.length_pending_add]
    rw [hp] at hw
    exact hw.closing p.delim

theorem Steps.raises : ∀ {ts : List Token} {st st' : State} {w : List Token.Kind},
    Steps mode limit st ts st' → Raises st.pending.length w →
      Raises st'.pending.length (w ++ delimiters ts)
  | [], st, _, w, rfl, hw => by simpa [delimiters] using hw
  | t :: ts, st, st', w, ⟨st₁, hread, hsteps⟩, hw => by
    have h := hsteps.raises (hread.raises hw)
    rwa [List.append_assoc, ← delimiters_append] at h

/-- Nesting is refused at an opening delimiter only, once the limit is reached. -/
theorem deep_of_step_error {span : Span}
    (h : step mode limit st t = .error ⟨.nestingTooDeep, span⟩) :
    (∃ d, t.kind = .opening d) ∧ 0 < limit ∧ limit < st.pending.length + 1 := by
  by_cases hblank : t.kind = .blank
  · cases (step_blank hblank).symm.trans h
  by_cases hover : st.lineIsOver mode = true
  · cases (step_over hblank hover).symm.trans h
  unfold step at h
  rw [if_neg hblank, if_neg hover] at h
  cases hk : t.kind with
  | blank => exact absurd hk hblank
  | string | symbol =>
    rw [hk] at h
    cases h
  | integer =>
    simp only [hk, integer] at h
    split_ifs at h <;> cases h
  | opening d =>
    simp only [hk] at h
    split_ifs at h with hd hdeep
    · cases h
    · exact ⟨⟨d, rfl⟩, hdeep⟩
  | closing d =>
    simp only [hk] at h
    split at h
    · cases h
    · split_ifs at h
      cases h

end Parser

theorem kind_of_scan_error (pos : Nat) (t : Bytes) : ∀ e, (ByteLexer.scan pos t).2 = some e →
    e.kind = .unknownStart ∨ e.kind = .unterminatedString := by
  induction pos, t using ByteLexer.scan_induction with
  | nil pos =>
    intro e he
    cases he
  | failed pos b bs kind run hfront =>
    intro e he
    rw [ByteLexer.scan_failed hfront] at he
    cases he
    rcases front_failed_cases hfront with ⟨hkind, -⟩ | ⟨hkind, -⟩
    · exact .inl hkind
    · exact .inr hkind
  | token pos b bs kind run rest hfront ih =>
    intro e he
    rw [ByteLexer.scan_token hfront] at he
    exact ih e he

namespace Parser

variable {mode : Mode} {limit : Nat} {text : Bytes} {names names' : Interner} {es : List Expr}

/-- A text whose delimiters are within the limit is not refused for its nesting, whatever else may
be wrong with it. -/
theorem nesting_of_shallow (h : Shallow limit (delimiters (tokens text).1)) (span : Span) :
    (parse mode limit text names).1 ≠ .error ⟨.nestingTooDeep, span⟩ := by
  intro herror
  unfold parse at herror
  rcases run_cases mode limit text.length (tokens text).2 (tokens text).1 { names := names } with
    ⟨st, hsteps, hrun⟩ | ⟨us, t, vs, st, e, htokens, hsteps, hstep, hrun⟩
  · simp only [hrun] at herror
    unfold finish at herror
    cases hfailure : (tokens text).2 with
    | none =>
      rw [hfailure] at herror
      simp only at herror
      split_ifs at herror
      cases herror
    | some e =>
      rw [ByteLexer.tokens_eq_scan] at hfailure
      have hkind := kind_of_scan_error 0 text e hfailure
      rw [ByteLexer.tokens_eq_scan, hfailure] at herror
      simp only [Except.error.injEq] at herror
      split_ifs at herror with hover
      · cases herror
      · rw [herror] at hkind
        simp at hkind
  · simp only [hrun] at herror
    cases herror
    obtain ⟨⟨d, hk⟩, hpos, hdeep⟩ := deep_of_step_error hstep
    have hraise : Raises st.pending.length (delimiters us) := hsteps.raises raises_nil
    have hsplit : delimiters (tokens text).1 = delimiters us ++ .opening d :: delimiters vs := by
      rw [htokens, delimiters_append, delimiters_cons, hk]
      rfl
    have hle := h hpos _ d _ hsplit
    rw [hraise.openAfter_eq] at hle
    omega

theorem sequence_depth_lt (hpos : 0 < limit)
    (h : parse .script limit text names = (.ok es, names')) {e n : Expr} (he : e ∈ es)
    {addr : List Nat} (hn : e.at? addr = some n) (hsequence : n.isSequence = true) :
    addr.length < limit := by
  obtain ⟨us, vs, htokens, hraise⟩ := split_of_parse h he hn
  obtain ⟨d, hdelim⟩ := Expr.tokens_of_isSequence text hsequence
  have hsplit : delimiters (tokens text).1 = delimiters us ++ .opening d ::
      delimiters (Expr.tokensAll text n.elems ++ [Expr.closeToken d n.span.hi] ++ vs) := by
    rw [← delimiters_filter, htokens, hdelim]
    simp only [List.append_assoc, List.cons_append, delimiters_append us, delimiters_cons]
    rfl
  have hle := shallow_of_parse h hpos _ d _ hsplit
  rwa [hraise.openAfter_eq] at hle

/-- No node is inside more sequences than the limit allows, since the innermost of them is not. -/
theorem depth_le_of_parse (hpos : 0 < limit)
    (h : parse .script limit text names = (.ok es, names')) {e n : Expr} (he : e ∈ es)
    {addr : List Nat} (hn : e.at? addr = some n) : addr.length ≤ limit := by
  rcases List.eq_nil_or_concat' addr with rfl | ⟨outer, i, rfl⟩
  · exact Nat.zero_le limit
  · obtain ⟨x, hx, hlast⟩ := Expr.at?_append.1 hn
    obtain ⟨y, hy, -⟩ := Expr.at?_cons_iff.1 hlast
    have hlt := sequence_depth_lt hpos h he hx
      (Expr.isSequence_of_elems (List.mem_of_getElem? hy))
    rw [List.length_append, List.length_singleton]
    exact hlt

end Parser

/-! ### Both limits -/

/-- Is the token neither a delimiter nor a run of blanks? -/
def Token.IsAtom (t : Token) : Prop := t.kind ≠ .blank ∧ t.kind.isDelimiter = false

/-- Among the trees of a text, the span is that of an atom inside `depth` sequences, none of them
the binding list of a `let*`; the tokens of the text before it leave as many delimiters open. -/
structure AtomAt (text : Bytes) (es : List Expr) (depth : Nat) (span : Span) : Prop where
  /-- The node and its address. -/
  node : ∃ e ∈ es, ∃ addr n, e.at? addr = some n ∧ n.span = span ∧ n.isSequence = false ∧
    addr.length = depth ∧ ¬ e.ThroughBindings addr
  /-- The token. -/
  token : ∃ us t vs, (tokens text).1 = us ++ t :: vs ∧ t.IsAtom ∧ t.span = span ∧
    openAfter (delimiters us) = depth

theorem atomAt_of_parse {limit depth : Nat} {text : Bytes} {names names' : Interner}
    {es : List Expr} (h : Parser.parse .script limit text names = (.ok es, names')) {e n : Expr}
    (he : e ∈ es) {addr : List Nat} (hn : e.at? addr = some n) (hatom : n.isSequence = false)
    (hdepth : addr.length = depth) (hlet : ¬ e.ThroughBindings addr) :
    AtomAt text es depth n.span where
  node := ⟨e, he, addr, n, hn, rfl, hatom, hdepth, hlet⟩
  token := by
    obtain ⟨head, hfaithful⟩ := (Parser.parse_ok h).2.of_mem he
    obtain ⟨head', hfaithful⟩ := hfaithful.at? hn
    obtain ⟨kind, hblank, hdelim, htoken⟩ := Expr.tokens_of_not_isSequence hfaithful hatom
    obtain ⟨us, vs, htokens, hraise⟩ := Parser.split_of_parse h he hn
    rw [htoken, List.append_assoc] at htokens
    obtain ⟨us', vs', hsplit, hfilter, -⟩ := Token.split_filter htokens
    refine ⟨us', _, vs', hsplit, ⟨hblank, hdelim⟩, rfl, ?_⟩
    rw [← delimiters_filter, hfilter, hraise.openAfter_eq, hdepth]

/-- What is deep enough to be refused, the parser allows for atoms only. -/
theorem DeepAmong.atomAt {limit : Nat} (hpos : 0 < limit) {text : Bytes} {names names' : Interner}
    {es : List Expr} (h : Parser.parse .script limit text names = (.ok es, names')) {span : Span}
    (hdeep : Expr.DeepAmong limit es 0 span) : AtomAt text es limit span := by
  obtain ⟨i, e, hi, addr, n, hn, rfl, hle, hthrough⟩ := hdeep
  have he := List.mem_of_getElem? hi
  rw [Nat.zero_add] at hle hthrough
  have hge := Parser.depth_le_of_parse hpos h he hn
  refine atomAt_of_parse h he hn ?_ (Nat.le_antisymm hge hle) fun hlet => ?_
  · refine Bool.eq_false_iff.2 fun hsequence => ?_
    exact absurd hle (Nat.not_le.2 (Parser.sequence_depth_lt hpos h he hn hsequence))
  · exact absurd hge (Nat.not_le.2 (hthrough hlet))

namespace Session

variable {s : Session} {text : Bytes} {span : Span}

theorem atomAt_of_evalScript (hdepth : s.depth = 0) (hpos : 0 < s.options.limit)
    (h : (s.evalScript text).result = .error (.failed ⟨.depthExceeded, span⟩)) :
    ∃ es, (s.parseScript text).1 = .ok es ∧ AtomAt text es s.options.limit span := by
  rcases hparse : Parser.parse .script s.options.limit text s.names with ⟨r, names'⟩
  cases r with
  | error e =>
    rw [evalScript_eq_afterReading, hparse] at h
    cases h
  | ok es =>
    rw [evalScript_of_parse hparse] at h
    have hdeep := (refuses_evalEach es .nil s.machine).2 span h
    rw [show s.machine.depth = 0 from hdepth] at hdeep
    exact ⟨es, congrArg Prod.fst hparse, DeepAmong.atomAt hpos hparse hdeep⟩

/-- A line that is refused for its depth is refused as a script. -/
theorem evalScript_of_evalLine (hdepth : s.depth = 0)
    (h : (s.evalLine text).result = .error (.failed ⟨.depthExceeded, span⟩)) :
    (s.evalScript text).result = .error (.failed ⟨.depthExceeded, span⟩) := by
  cases hread : (s.parse text).1 with
  | ok e => rwa [← evalLine_eq_evalScript hdepth hread]
  | error e =>
    have hline : s.parse text = (.error e, (s.parse text).2) := Prod.ext hread rfl
    unfold evalLine at h
    rw [hline] at h
    cases h

theorem Ends.malformed {trees : Except SyntaxError (List Expr)} {names : Interner}
    {e : SyntaxError} (h : Ends text trees names (.error (.malformed e))) : trees = .error e := by
  cases trees with
  | error e' =>
    obtain ⟨hmalformed, -⟩ := h
    cases hmalformed
    rfl
  | ok es =>
    obtain ⟨e', hfailed, -⟩ := h
    cases hfailed

/-- A text within the limit is not refused for its nesting, as a line or as a script. -/
theorem nesting_of_shallow (hs : s.Proper)
    (hshallow : Shallow s.options.limit (delimiters (tokens text).1)) (span : Span) :
    (s.evalLine text).result ≠ .error (.malformed ⟨.nestingTooDeep, span⟩) ∧
      (s.evalScript text).result ≠ .error (.malformed ⟨.nestingTooDeep, span⟩) := by
  constructor
  · intro h
    have hends := (hs.evalLine text).2
    rw [h] at hends
    have htrees := hends.malformed
    rcases hline : parseLine s.options.limit text s.names with ⟨r, names'⟩
    simp only [Session.parse, hline] at htrees
    cases r with
    | ok e => cases htrees
    | error e =>
      cases htrees
      exact Parser.nesting_of_shallow hshallow span
        (congrArg Prod.fst (parse_of_parseLine_error hline))
  · intro h
    have hends := (hs.evalScript text).2
    rw [h] at hends
    exact Parser.nesting_of_shallow hshallow span hends.malformed

/-- In a session that can be reached, with a positive limit: what is refused for its depth is an
atom inside exactly as many sequences as the limit allows, none of them the binding list of a
`let*`.  So a text with no atom inside that many sequences, and none nested deeper than the limit,
is refused neither for its nesting nor for its depth.  (An empty sequence within the limit is inside
fewer sequences in any case.) -/
theorem depth_limits_fit (hs : s.Reachable) (hpos : 0 < s.options.limit) (text : Bytes) :
    (∀ span, (s.evalLine text).result = .error (.failed ⟨.depthExceeded, span⟩) ∨
        (s.evalScript text).result = .error (.failed ⟨.depthExceeded, span⟩) →
      ∃ es, (s.parseScript text).1 = .ok es ∧ AtomAt text es s.options.limit span) ∧
    (Shallow s.options.limit (delimiters (tokens text).1) →
      (∀ us t vs, (tokens text).1 = us ++ t :: vs → t.IsAtom →
        openAfter (delimiters us) < s.options.limit) →
      ∀ r ∈ [(s.evalLine text).result, (s.evalScript text).result], ∀ span,
        r ≠ .error (.malformed ⟨.nestingTooDeep, span⟩) ∧
          r ≠ .error (.failed ⟨.depthExceeded, span⟩)) := by
  have hdepth := hs.proper.depth_eq
  have hrefused {span : Span}
      (h : (s.evalLine text).result = .error (.failed ⟨.depthExceeded, span⟩) ∨
        (s.evalScript text).result = .error (.failed ⟨.depthExceeded, span⟩)) :
      ∃ es, (s.parseScript text).1 = .ok es ∧ AtomAt text es s.options.limit span :=
    atomAt_of_evalScript hdepth hpos (h.elim (evalScript_of_evalLine hdepth) fun h => h)
  refine ⟨fun span => hrefused, fun hshallow hatoms r hr span => ?_⟩
  have hdeep (h : (s.evalLine text).result = .error (.failed ⟨.depthExceeded, span⟩) ∨
      (s.evalScript text).result = .error (.failed ⟨.depthExceeded, span⟩)) : False := by
    obtain ⟨es, -, -, us, t, vs, htokens, hatom, -, hopen⟩ := hrefused h
    exact Nat.ne_of_lt (hatoms us t vs htokens hatom) hopen
  obtain ⟨hline, hscript⟩ := nesting_of_shallow hs.proper hshallow span
  rcases List.mem_pair.1 hr with rfl | rfl
  · exact ⟨hline, fun h => hdeep (.inl h)⟩
  · exact ⟨hscript, fun h => hdeep (.inr h)⟩

/-- The element of a vector is refused under the limit 1, and nothing is under the limit 2. -/
theorem depth_limits_fit_vector :
    let text := utf8 "[7]"
    let tight := (start [] { limit := 1 }).session
    let wide := (start [] { limit := 2 }).session
    (tight.evalLine text).result = .error (.failed ⟨.depthExceeded, ⟨1, 2⟩⟩) ∧
      (∃ es, (tight.parseScript text).1 = .ok es ∧ AtomAt text es 1 ⟨1, 2⟩) ∧
      Shallow 2 (delimiters (tokens text).1) ∧
      ∀ span, (wide.evalLine text).result ≠ .error (.failed ⟨.depthExceeded, span⟩) := by
  intro text tight wide
  have htokens : (tokens text).1 = [⟨.opening .bracket, ⟨0, 1⟩, utf8 "["⟩,
      ⟨.integer, ⟨1, 2⟩, utf8 "7"⟩, ⟨.closing .bracket, ⟨2, 3⟩, utf8 "]"⟩] := by
    rw [ByteLexer.tokens_eq_scan]
    rfl
  have hline : (tight.evalLine text).result = .error (.failed ⟨.depthExceeded, ⟨1, 2⟩⟩) := by
    unfold Session.evalLine Session.parse parseLine Parser.parse
    rw [ByteLexer.tokens_eq_scan]
    rfl
  have hshallow : Shallow 2 (delimiters (tokens text).1) := by
    rw [htokens]
    rintro - (_ | ⟨_, _ | ⟨_, _ | ⟨_, _⟩⟩⟩) d v h
    · decide
    all_goals cases h
  have hatoms (us : List Token) (t : Token) (vs : List Token)
      (h : (tokens text).1 = us ++ t :: vs) (ht : t.IsAtom) : openAfter (delimiters us) < 2 := by
    rw [htokens] at h
    rcases us with _ | ⟨_, _ | ⟨_, _ | ⟨_, _⟩⟩⟩
    · decide
    · cases h
      decide
    · cases h
      decide
    · simp at h
  exact ⟨hline, (depth_limits_fit (.start [] { limit := 1 }) (by decide) text).1 _ (.inl hline),
    hshallow, fun span => ((depth_limits_fit (.start [] { limit := 2 }) (by decide) text).2 hshallow
      hatoms _ List.mem_cons_self span).2⟩

end Session

end SpanLisp
