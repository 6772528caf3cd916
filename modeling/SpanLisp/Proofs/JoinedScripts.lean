import SpanLisp.Proofs.EarliestErrors
import SpanLisp.Proofs.Places
import SpanLisp.Proofs.TwoSessions

/-! Two scripts with a line feed between them are read and evaluated as one after the other, what
belongs to the second standing further along (`shift`). -/

namespace SpanLisp

open ByteLexer

/-! ### Further along -/

/-- The span `k` bytes further along. -/
def Span.shift (k : Nat) (s : Span) : Span := ⟨s.lo + k, s.hi + k⟩

/-- The token `k` bytes further along. -/
def Token.shift (k : Nat) (t : Token) : Token := { t with span := t.span.shift k }

namespace Expr

mutual

/-- The tree `k` bytes further along. -/
def shift (k : Nat) : Expr → Expr
  | bool s b => .bool (s.shift k) b
  | integer s n => .integer (s.shift k) n
  | keyword s sym => .keyword (s.shift k) sym
  | list s xs => .list (s.shift k) (shiftAll k xs)
  | nil s => .nil (s.shift k)
  | operator s op => .operator (s.shift k) op
  | string s => .string (s.shift k)
  | symbol s sym => .symbol (s.shift k) sym
  | vector s xs => .vector (s.shift k) (shiftAll k xs)
  | unlisted s code => .unlisted (s.shift k) code

/-- The trees `k` bytes further along. -/
def shiftAll (k : Nat) : List Expr → List Expr
  | [] => []
  | x :: xs => shift k x :: shiftAll k xs

end

theorem shiftAll_eq_map (k : Nat) (xs : List Expr) : shiftAll k xs = xs.map (shift k) := by
  induction xs with
  | nil => rfl
  | cons x xs ih => rw [shiftAll, ih, List.map_cons]

mutual

theorem shift_zero : ∀ x : Expr, shift 0 x = x
  | .list s xs => congrArg (Expr.list s) (shiftAll_zero xs)
  | .vector s xs => congrArg (Expr.vector s) (shiftAll_zero xs)
  | .bool _ _ | .integer _ _ | .keyword _ _ | .nil _ | .operator _ _ | .string _ | .symbol _ _
  | .unlisted _ _ => rfl

theorem shiftAll_zero : ∀ xs : List Expr, shiftAll 0 xs = xs
  | [] => rfl
  | x :: xs => congrArg₂ List.cons (shift_zero x) (shiftAll_zero xs)

end

end Expr

/-- A span has the same bytes in a text and in a longer one around it. -/
theorem slice_shift {text : Bytes} {s : Span} (h : s.Within text.length) (pre post : Bytes) :
    slice text s = slice (pre ++ text ++ post) (s.shift pre.length) := by
  obtain ⟨hle, hsize⟩ := h
  have hwithin : (s.shift pre.length).Within (pre ++ text ++ post).length := by
    simp only [Span.Within, Span.shift, List.length_append]
    omega
  have hdrop : (pre ++ text ++ post).drop (s.lo + pre.length) = text.drop s.lo ++ post := by
    rw [Nat.add_comm, ← List.drop_drop, List.append_assoc, List.drop_left,
      List.drop_append_of_le_length (by omega)]
  have hof : (s.shift pre.length).of (pre ++ text ++ post) = s.of text := by
    simp only [Span.of, Span.shift]
    rw [hdrop, Nat.add_sub_add_right,
      List.take_append_of_le_length (by simp only [List.length_drop]; omega)]
  rw [slice_of_within ⟨hle, hsize⟩, slice_of_within hwithin, hof]

mutual

/-- Further along in one source and in another, a tree is the same but for its place. -/
theorem congruent_shift {a b : Bytes} {j k : Nat} {R : Span → Span → Prop}
    (hR : ∀ s : Span, R (s.shift j) (s.shift k)) :
    ∀ {x : Expr}, (∀ n ∈ x.nodes, slice a (n.span.shift j) = slice b (n.span.shift k)) →
      Expr.Congruent a b R (x.shift j) (x.shift k)
  | .bool _ _, _ => .bool (hR _) _
  | .integer _ _, _ => .integer (hR _) _
  | .keyword _ _, _ => .keyword (hR _) _
  | .list _ _, h =>
    .list (hR _) (congruentAll_shift hR fun n hn => h n (List.mem_cons_of_mem _ hn))
  | .nil _, _ => .nil (hR _)
  | .operator _ _, _ => .operator (hR _) _
  | .string _, h => .string (hR _) (h _ List.mem_cons_self)
  | .symbol _ _, h => .symbol (hR _) (h _ List.mem_cons_self) _
  | .vector _ _, h =>
    .vector (hR _) (congruentAll_shift hR fun n hn => h n (List.mem_cons_of_mem _ hn))
  | .unlisted _ _, _ => .unlisted (hR _) _

theorem congruentAll_shift {a b : Bytes} {j k : Nat} {R : Span → Span → Prop}
    (hR : ∀ s : Span, R (s.shift j) (s.shift k)) :
    ∀ {xs : List Expr},
      (∀ n ∈ Expr.nodesAll xs, slice a (n.span.shift j) = slice b (n.span.shift k)) →
      Expr.CongruentAll a b R (Expr.shiftAll j xs) (Expr.shiftAll k xs)
  | [], _ => .nil
  | _ :: _, h => .cons (congruent_shift hR fun n hn => h n (List.mem_append_left _ hn))
      (congruentAll_shift hR fun n hn => h n (List.mem_append_right _ hn))

end

/-- Trees of a text are the same in a longer text around it, but for their places. -/
theorem congruentAll_around {text : Bytes} (pre post : Bytes) {R : Span → Span → Prop}
    (hR : ∀ s, R s (s.shift pre.length)) {xs : List Expr}
    (h : ∀ n ∈ Expr.nodesAll xs, n.span.Within text.length) :
    Expr.CongruentAll text (pre ++ text ++ post) R xs (Expr.shiftAll pre.length xs) := by
  have hcongruent := congruentAll_shift (j := 0) hR fun n hn => slice_shift (h n hn) pre post
  rwa [Expr.shiftAll_zero] at hcongruent

/-! ### Lexing further along and across a line feed -/

theorem scan_shift (k pos : Nat) (t : Bytes) :
    (scan (pos + k) t).1 = (scan pos t).1.map (Token.shift k) ∧
      ((scan pos t).2 = none → (scan (pos + k) t).2 = none) := by
  induction pos, t using scan_induction with
  | nil pos => exact ⟨rfl, fun _ => rfl⟩
  | failed pos b bs kind run hfront =>
    rw [scan_failed hfront, scan_failed hfront]
    exact ⟨rfl, fun h => nomatch h⟩
  | token pos b bs kind run rest hfront ih =>
    rw [scan_token hfront, scan_token hfront, Nat.add_right_comm]
    refine ⟨?_, ih.2⟩
    rw [List.map_cons, ih.1]
    rfl

/-- The tokens of the bytes from offset `pos` on, blanks left out. -/
def solidScan (pos : Nat) (t : Bytes) : List Token × Option SyntaxError :=
  ((scan pos t).1.filter (·.kind ≠ .blank), (scan pos t).2)

theorem solidScan_blanks {w : Bytes} (hw : ∀ b ∈ w, isBlank b = true) (pos : Nat) (t : Bytes) :
    solidScan pos (w ++ t) = solidScan (pos + w.length) t := by
  -- The blanks in front of `t` may belong to one token with those that `t` begins with.
  have hsplit : w ++ t = (w ++ t.takeWhile isBlank) ++ t.dropWhile isBlank := by
    rw [List.append_assoc, List.takeWhile_append_dropWhile]
  have hscan (v : Bytes) (hv : ∀ b ∈ v, isBlank b = true) (pos : Nat) :
      solidScan pos (v ++ t.dropWhile isBlank) =
        solidScan (pos + v.length) (t.dropWhile isBlank) := by
    by_cases hne : v = []
    · rw [hne]
      rfl
    · have hlexeme : Lexeme .blank v := ⟨hne, hv⟩
      unfold solidScan
      rw [scan_append hlexeme head?_dropWhile]
      rfl
  have htake : ∀ b ∈ t.takeWhile isBlank, isBlank b = true := fun b hb => List.mem_takeWhile_imp hb
  rw [hsplit, hscan _ (by
    intro b hb
    rcases List.mem_append.1 hb with hb | hb
    · exact hw b hb
    · exact htake b hb), List.length_append, ← Nat.add_assoc]
  conv_rhs => rw [← List.takeWhile_append_dropWhile (p := isBlank) (l := t)]
  rw [hscan _ htake]

theorem solidScan_token {kind : Token.Kind} {w rest : Bytes} (hw : Lexeme kind w)
    (hr : Stops kind rest) (hk : kind ≠ .blank) (pos : Nat) :
    solidScan pos (w ++ rest) = (⟨kind, ⟨pos, pos + w.length⟩, w⟩ ::
      (solidScan (pos + w.length) rest).1, (solidScan (pos + w.length) rest).2) := by
  unfold solidScan
  rw [scan_append hw hr, List.filter_cons_of_pos (by simp [hk])]

theorem Stops.lineFeed {kind : Token.Kind} {rest : Bytes} (h : Stops kind rest)
    (hk : kind ≠ .blank) (t : Bytes) : Stops kind (rest ++ Bytes.lineFeed :: t) := by
  cases rest with
  | cons b bs => exact h
  | nil =>
    intro b hb
    obtain rfl : Bytes.lineFeed = b := Option.some.inj hb
    cases kind with
    | blank => exact absurd rfl hk
    | integer => decide
    | symbol => decide
    | string | opening | closing => trivial

/-- Across a line feed, what lexes without error goes on with what follows. -/
theorem solidScan_lineFeed (rest : Bytes) (pos : Nat) (t : Bytes) :
    (scan pos t).2 = none → solidScan pos (t ++ Bytes.lineFeed :: rest) =
      ((solidScan pos t).1 ++ (solidScan (pos + t.length + 1) rest).1,
        (solidScan (pos + t.length + 1) rest).2) := by
  induction pos, t using scan_induction with
  | nil pos =>
    intro _
    exact solidScan_blanks (w := [Bytes.lineFeed]) (List.forall_mem_singleton.2 rfl) pos rest
  | failed pos b bs kind run hfront =>
    intro h
    rw [scan_failed hfront] at h
    cases h
  | token pos b bs kind run more hfront ih =>
    intro h
    rw [scan_token hfront] at h
    obtain ⟨hlexeme, hstops⟩ := lexeme_of_front hfront
    obtain ⟨hsplit, -⟩ := eq_append_of_front hfront
    rw [hsplit, List.append_assoc, List.length_append, ← Nat.add_assoc]
    by_cases hk : kind = .blank
    · subst hk
      rw [solidScan_blanks hlexeme.2, solidScan_blanks hlexeme.2, ih h]
    · rw [solidScan_token hlexeme (hstops.lineFeed hk rest) hk, solidScan_token hlexeme hstops hk,
        ih h]
      rfl

/-! ### Reading further along -/

namespace Parser

theorem wordAt_shift (k : Nat) (head : Bool) (s : Span) (text : Bytes) (names : Interner) :
    wordAt head (s.shift k) text names =
      ((wordAt head s text names).1.shift k, (wordAt head s text names).2) := by
  unfold wordAt
  split
  · rfl
  · unfold word
    split_ifs
    · rfl
    · rfl
    · rfl
    · split <;> rfl

theorem sequence_shift (k : Nat) (d : Delim) (s : Span) (xs : List Expr) :
    (sequence d s xs).shift k = sequence d (s.shift k) (xs.map (Expr.shift k)) := by
  unfold sequence
  rw [← Expr.shiftAll_eq_map]
  split_ifs <;> rfl

/-- The open sequence `k` bytes further along. -/
def Pending.shift (k : Nat) (p : Pending) : Pending :=
  ⟨p.delim, p.lo + k, p.elems.map (Expr.shift k)⟩

/-- The state `k` bytes further along, behind the expressions `done`, last first. -/
def State.after (k : Nat) (done : List Expr) (st : State) : State where
  pending := st.pending.map (Pending.shift k)
  complete := st.complete.map (Expr.shift k) ++ done
  names := st.names

variable {limit k : Nat} {done : List Expr} {st st' : State} {t : Token}

theorem State.after_add (k : Nat) (done : List Expr) (st : State) (e : Expr) :
    (st.add e).after k done = (st.after k done).add (e.shift k) := by
  obtain ⟨pending, complete, names⟩ := st
  cases pending <;> rfl

theorem State.atHead_after (k : Nat) (done : List Expr) (st : State) :
    (st.after k done).atHead = st.atHead := by
  obtain ⟨pending, complete, names⟩ := st
  match pending with
  | [] => rfl
  | ⟨d, lo, elems⟩ :: ps => cases d <;> cases elems <;> rfl

theorem Reads.after (h : Reads .script limit st t st') (k : Nat) (done : List Expr) :
    Reads .script limit (st.after k done) (t.shift k) (st'.after k done) := by
  have hover : (st.after k done).lineIsOver .script = false := lineIsOver_script _
  cases h with
  | blank hk => exact .blank hk
  | integer hk _ hfits =>
    rw [State.after_add]
    exact .integer hk hover hfits
  | string hk _ =>
    rw [State.after_add]
    exact .string hk hover
  | word hk _ =>
    have hword : Reads .script limit (st.after k done) (t.shift k) _ := .word hk hover
    rw [State.atHead_after] at hword
    simp only [Token.shift] at hword
    rw [wordAt_shift] at hword
    rw [State.after_add]
    exact hword
  | opening d hk _ hd hlimit =>
    refine .opening d hk hover hd ?_
    rwa [State.after, List.length_map]
  | closing p ps hp hk _ =>
    have hpending : (st.after k done).pending = p.shift k :: ps.map (Pending.shift k) := by
      rw [State.after, hp, List.map_cons]
    have hclose : Reads .script limit (st.after k done) (t.shift k) _ :=
      .closing _ _ hpending hk hover
    rw [State.after_add, sequence_shift, List.map_reverse]
    exact hclose

theorem Steps.after (k : Nat) (done : List Expr) : ∀ {ts : List Token} {st st' : State},
    Steps .script limit st ts st' →
      Steps .script limit (st.after k done) (ts.map (Token.shift k)) (st'.after k done)
  | [], _, _, rfl => rfl
  | _ :: _, _, _, ⟨_, hread, hsteps⟩ => ⟨_, hread.after k done, hsteps.after k done⟩

theorem Steps.append {mode : Mode} {us : List Token} {st'' : State} :
    ∀ {ts : List Token} {st st' : State}, Steps mode limit st ts st' →
      Steps mode limit st' us st'' → Steps mode limit st (ts ++ us) st''
  | [], _, _, rfl, h => h
  | _ :: _, _, _, ⟨_, hread, hsteps⟩, h => ⟨_, hread, hsteps.append h⟩

/-- Two scripts with a line feed between them hold the expressions of the one and then, further
along, those of the other, and the same names are met as in one after the other. -/
theorem parse_joined {t u : Bytes} {names names₁ names₂ : Interner} {es es' : List Expr}
    (ht : parse .script limit t names = (.ok es, names₁))
    (hu : parse .script limit u names₁ = (.ok es', names₂)) :
    parse .script limit (t ++ Bytes.lineFeed :: u) names =
      (.ok (es ++ Expr.shiftAll (t.length + 1) es'), names₂) := by
  obtain ⟨hlexes, st, hsteps, hpending, rfl, rfl⟩ := parse_ok_iff.1 ht
  obtain ⟨hlexes', st', hsteps', hpending', rfl, rfl⟩ := parse_ok_iff.1 hu
  rw [tokens_eq_scan] at hlexes hlexes' hsteps hsteps'
  have hscan := solidScan_lineFeed u 0 t hlexes
  obtain ⟨hshift, hnone⟩ := scan_shift (t.length + 1) 0 u
  rw [Nat.zero_add] at hscan hshift hnone
  have hstart : State.after (t.length + 1) st.complete { names := st.names } = st := by
    obtain ⟨pending, complete, names⟩ := st
    cases hpending
    rfl
  have hrest := hsteps'.after (t.length + 1) st.complete
  rw [hstart, ← hshift] at hrest
  rw [parse_ok_iff, tokens_eq_scan]
  refine ⟨(congrArg Prod.snd hscan).trans (hnone hlexes'), st'.after (t.length + 1) st.complete,
    ?_, ?_, ?_, rfl⟩
  · rw [steps_filter]
    have htokens := congrArg Prod.fst hscan
    simp only [solidScan] at htokens
    rw [htokens]
    exact (steps_filter.1 hsteps).append (steps_filter.1 hrest)
  · rw [State.after, hpending', List.map_nil]
  · rw [State.after, List.reverse_append, Expr.shiftAll_eq_map, List.map_reverse]

end Parser

/-! ### Evaluating one after the other -/

theorem Fault.Congruent.eq {f f' : Fault} (h : f.Congruent Eq f') : f = f' := by
  cases h with
  | failed kind h => rw [h]
  | misplaced op h => rw [h]
  | defect d => rfl

theorem CongruentEnd.eq {α : Type} {r r' : Except Fault α} (h : CongruentEnd Eq r r') : r = r' := by
  cases h with
  | ok a => rfl
  | error h => rw [h.eq]

/-- The fault `k` bytes further along. -/
def Fault.shift (k : Nat) : Fault → Fault
  | malformed e => .malformed { e with span := e.span.shift k }
  | failed e => .failed { e with span := e.span.shift k }
  | defect d => .defect d

namespace Session

theorem evalEach_append (opts : EvalOptions) (source : Bytes) (ys : List Expr) :
    ∀ (xs : List Expr) (last : Value) (m : Machine),
      evalEach opts source last (xs ++ ys) m =
        (evalEach opts source last xs >>= fun v => evalEach opts source v ys) m
  | [], _, _ => rfl
  | x :: xs, last, m => by
    rw [List.cons_append, evalEach, evalEach]
    rcases hx : x.eval opts source m with ⟨r, m'⟩
    cases r with
    | error f =>
      have hfirst : (x.eval opts source >>= fun v => evalEach opts source v xs) m =
          (.error f, m') := EvalM.bind_of_error hx
      rw [EvalM.bind_of_error hx, EvalM.bind_of_error hfirst]
    | ok v =>
      rw [EvalM.bind_of_ok hx, evalEach_append opts source ys xs v m']
      have hfirst : (x.eval opts source >>= fun v => evalEach opts source v xs) m =
          evalEach opts source v xs m' := EvalM.bind_of_ok hx
      simp only [bind] at hfirst ⊢
      rw [hfirst]

variable {s : Session} {text : Bytes} {names : Interner} {es : List Expr}

theorem evalScript_of_parse
    (h : Parser.parse .script s.options.limit text s.names = (.ok es, names)) :
    s.evalScript text = { s with names := names }.run (evalEach s.options text .nil es) := by
  rw [evalScript_eq_afterReading, h]
  rfl

theorem within_of_parse {mode : Parser.Mode} {limit : Nat} {before : Interner}
    (h : Parser.parse mode limit text before = (.ok es, names)) :
    ∀ n ∈ Expr.nodesAll es, n.span.Within text.length := by
  intro n hn
  obtain ⟨hlt, hle⟩ := Parser.spans_of_parse h n hn
  exact ⟨Nat.le_of_lt hlt, hle⟩

theorem run_of_machine {α : Type} {x : EvalM α} {names : Interner} {r : Except Fault α × Machine}
    (h : x s.machine = r) :
    { s with names := names }.run x =
      ⟨r.1, { s with names := names, stack := r.2.stack, depth := r.2.depth },
        r.2.events.reverse⟩ := by
  subst h
  rfl

/-- In front of more text, an accepted script is evaluated the same way. -/
theorem evalScript_before (h : Parser.parse .script s.options.limit text s.names = (.ok es, names))
    (post : Bytes) :
    ∃ m : Machine,
      evalEach s.options (text ++ post) .nil es s.machine = ((s.evalScript text).result, m) ∧
      (s.evalScript text).session =
        { s with names := names, stack := m.stack, depth := m.depth } := by
  have hes := congruentAll_around [] post (R := Eq) (fun _ => rfl) (within_of_parse h)
  rw [List.length_nil, Expr.shiftAll_zero, List.nil_append] at hes
  obtain ⟨hend, hstack, hdepth⟩ :=
    parallel_evalEach s.options .nil hes s.machine s.machine rfl rfl
  rw [evalScript_of_parse h]
  refine ⟨(evalEach s.options (text ++ post) .nil es s.machine).2, Prod.ext hend.eq.symm rfl, ?_⟩
  rw [← hstack, ← hdepth]
  rfl

/-- Behind other text, the same is evaluated further along. -/
theorem parallel_behind (opts : EvalOptions) (pre : Bytes)
    (h : ∀ n ∈ Expr.nodesAll es, n.span.Within text.length) (last : Value) :
    Parallel (fun s s' => s' = s.shift pre.length) (evalEach opts text last es)
      (evalEach opts (pre ++ text) last (Expr.shiftAll pre.length es)) := by
  have hes := congruentAll_around pre [] (R := fun s s' => s' = s.shift pre.length)
    (fun _ => rfl) h
  rw [List.append_nil] at hes
  exact parallel_evalEach opts last hes

section Joined

variable {t u : Bytes} {names₁ names₂ : Interner} {es' : List Expr}
  (ht : Parser.parse .script s.options.limit t s.names = (.ok es, names₁))
  (hu : Parser.parse .script s.options.limit u names₁ = (.ok es', names₂))
include ht hu

theorem evalScript_joined_error {f : Fault} (hf : (s.evalScript t).result = .error f) :
    (s.evalScript (t ++ Bytes.lineFeed :: u)).result = .error f ∧
      (s.evalScript (t ++ Bytes.lineFeed :: u)).session =
        ((s.evalScript t).session.parseScript u).2 := by
  obtain ⟨m, hm, hsession⟩ := evalScript_before ht (Bytes.lineFeed :: u)
  rw [hf] at hm
  have hwhole : evalEach s.options (t ++ Bytes.lineFeed :: u) .nil
      (es ++ Expr.shiftAll (t.length + 1) es') s.machine = (.error f, m) := by
    rw [evalEach_append, EvalM.bind_of_error hm]
  rw [evalScript_of_parse (Parser.parse_joined ht hu), run_of_machine hwhole, hsession]
  refine ⟨rfl, ?_⟩
  simp only [parseScript, parseAll, hu]

theorem evalScript_joined_ok {v : Value} (hv : (s.evalScript t).result = .ok v) :
    CongruentEnd (fun s s' => s' = s.shift (t.length + 1))
        ({ (s.evalScript t).session with names := names₂ }.run
          (evalEach s.options u v es')).result
        (s.evalScript (t ++ Bytes.lineFeed :: u)).result ∧
      ({ (s.evalScript t).session with names := names₂ }.run
          (evalEach s.options u v es')).session =
        (s.evalScript (t ++ Bytes.lineFeed :: u)).session := by
  obtain ⟨m, hm, hsession⟩ := evalScript_before ht (Bytes.lineFeed :: u)
  rw [hv] at hm
  have hwhole : evalEach s.options (t ++ Bytes.lineFeed :: u) .nil
      (es ++ Expr.shiftAll (t.length + 1) es') s.machine =
      evalEach s.options (t ++ Bytes.lineFeed :: u) v (Expr.shiftAll (t.length + 1) es') m := by
    rw [evalEach_append, EvalM.bind_of_ok hm]
  have hbehind := parallel_behind s.options (t ++ [Bytes.lineFeed]) (within_of_parse hu) v
    { stack := m.stack, depth := m.depth } m rfl rfl
  rw [List.append_assoc, List.length_append] at hbehind
  obtain ⟨hend, hstack, hdepth⟩ := hbehind
  rw [evalScript_of_parse (Parser.parse_joined ht hu), run_of_machine hwhole, hsession]
  refine ⟨hend, ?_⟩
  rw [Session.mk.injEq]
  exact ⟨rfl, rfl, hstack, hdepth, rfl⟩

theorem evalScript_second :
    (s.evalScript t).session.parseScript u =
        (.ok es', { (s.evalScript t).session with names := names₂ }) ∧
      (s.evalScript t).session.evalScript u =
        { (s.evalScript t).session with names := names₂ }.run (evalEach s.options u .nil es') := by
  obtain ⟨m, -, hsession⟩ := evalScript_before ht []
  rw [hsession]
  refine ⟨?_, evalScript_of_parse hu⟩
  rw [parseScript, parseAll, hu]

end Joined

end Session

theorem CongruentEnd.eq_shift {k : Nat} {r r' : Except Fault Value} {S : Span → Prop}
    {Q : Value → Prop} (h : CongruentEnd (fun s s' => s' = s.shift k) r r') (hfine : Fine S Q r) :
    r' = r.mapError (Fault.shift k) := by
  cases h with
  | ok a => rfl
  | error h =>
    obtain ⟨e, rfl, -⟩ := hfine
    cases h with
    | failed kind h => rw [h]; rfl

/-- Scripts compose.  From a session that can be reached, two accepted scripts with a line feed
between them evaluate as the one and then, if that succeeds, the other.  If the first fails, so does
the whole, with the same fault, and leaves the frames that the first leaves.  Otherwise it leaves
the session that the second leaves; it fails as the second fails, further along, or else ends with
the value of the second, or of the first if the second holds no expression. -/
theorem scripts_compose {s : Session} (hs : s.Reachable) {t u : Bytes} {es es' : List Expr}
    (ht : (s.parseScript t).1 = .ok es) (hu : (s.parseScript u).1 = .ok es') :
    (∀ f, (s.evalScript t).result = .error f →
      (s.evalScript (t ++ utf8 "\n" ++ u)).result = .error f ∧
        (s.evalScript (t ++ utf8 "\n" ++ u)).session =
          ((s.evalScript t).session.parseScript u).2) ∧
    ∀ v, (s.evalScript t).result = .ok v →
      (s.evalScript (t ++ utf8 "\n" ++ u)).result =
          (((s.evalScript t).session.evalScript u).result.map
            fun w => if es'.isEmpty then v else w).mapError (Fault.shift (t.length + 1)) ∧
        (s.evalScript (t ++ utf8 "\n" ++ u)).session =
          ((s.evalScript t).session.evalScript u).session := by
  obtain ⟨names₁, h₁⟩ : ∃ names₁, Parser.parse .script s.options.limit t s.names =
      (.ok es, names₁) := ⟨_, Prod.ext ht rfl⟩
  -- The second script is accepted whatever names the first has left.
  have hsame := Parser.same_parse .script s.options.limit u s.names names₁
  obtain ⟨es₂, hes₂⟩ := hsame.ok_left hu
  have hempty : es'.isEmpty = es₂.isEmpty := by
    have hes' : (Parser.parse .script s.options.limit u s.names).1 = .ok es' := hu
    rw [hes', hes₂] at hsame
    cases hsame with
    | ok h => exact h.isEmpty_eq
  obtain ⟨names₂, h₂⟩ : ∃ names₂, Parser.parse .script s.options.limit u names₁ =
      (.ok es₂, names₂) := ⟨_, Prod.ext hes₂ rfl⟩
  have hjoined : t ++ utf8 "\n" ++ u = t ++ Bytes.lineFeed :: u := by
    rw [List.append_assoc]
    rfl
  rw [hjoined, hempty]
  refine ⟨fun f hf => Session.evalScript_joined_error h₁ h₂ hf, fun v hv => ?_⟩
  obtain ⟨hend, hsession⟩ := Session.evalScript_joined_ok h₁ h₂ hv
  obtain ⟨hread, hsecond⟩ := Session.evalScript_second h₁ h₂
  have hfine := ((Session.Reachable.evalScript hs t).proper.evalScript u).2
  rw [hread] at hfine
  rw [hsecond] at hfine ⊢
  cases es₂ with
  | nil => exact ⟨hend.eq_shift (S := fun _ => True) (Q := fun _ => True) trivial, hsession.symm⟩
  | cons e es₂ =>
    refine ⟨?_, hsession.symm⟩
    rw [hend.eq_shift hfine]
    exact congrArg _ (congrFun Except.map_id _).symm

/-- A definition, and behind it a name that it defines and one that it does not. -/
theorem scripts_compose_undefined_name :
    ((Session.ofId [] {}).parseScript (utf8 "(def! x 1)")).1 =
        .ok [.list ⟨0, 10⟩ [.operator ⟨1, 5⟩ .define, .symbol ⟨6, 7⟩ 9, .integer ⟨8, 9⟩ 1]] ∧
      ((Session.ofId [] {}).parseScript (utf8 "x\ty")).1 =
        .ok [.symbol ⟨0, 1⟩ 8, .symbol ⟨2, 3⟩ 9] ∧
      ((Session.ofId [] {}).evalScript (utf8 "(def! x 1)")).result = .ok (.integer 1) ∧
      (((Session.ofId [] {}).evalScript (utf8 "(def! x 1)")).session.evalScript
        (utf8 "x\ty")).result = .error (.failed ⟨.undefinedSymbol, ⟨2, 3⟩⟩) ∧
      ((Session.ofId [] {}).evalScript (utf8 "(def! x 1)" ++ utf8 "\n" ++ utf8 "x\ty")).result =
        .error (.failed ⟨.undefinedSymbol, ⟨13, 14⟩⟩) := by
  have hparse (text : Bytes) (s : Session) : s.parseScript text =
      let r := Parser.run .script s.options.limit text.length (scan 0 text).2 (scan 0 text).1
        { names := s.names }
      (r.1, { s with names := r.2 }) := by
    rw [Session.parseScript, parseAll, Parser.parse, tokens_eq_scan]
  have ht : ((Session.ofId [] {}).parseScript (utf8 "(def! x 1)")).1 =
      .ok [.list ⟨0, 10⟩ [.operator ⟨1, 5⟩ .define, .symbol ⟨6, 7⟩ 9, .integer ⟨8, 9⟩ 1]] := by
    rw [hparse]
    rfl
  have hu : ((Session.ofId [] {}).parseScript (utf8 "x\ty")).1 =
      .ok [.symbol ⟨0, 1⟩ 8, .symbol ⟨2, 3⟩ 9] := by
    rw [hparse]
    rfl
  have hfirst : ((Session.ofId [] {}).evalScript (utf8 "(def! x 1)")).result =
      .ok (.integer 1) := by
    rw [Session.evalScript, hparse]
    rfl
  have hsecond : (((Session.ofId [] {}).evalScript (utf8 "(def! x 1)")).session.evalScript
      (utf8 "x\ty")).result = .error (.failed ⟨.undefinedSymbol, ⟨2, 3⟩⟩) := by
    rw [Session.evalScript, Session.evalScript, hparse, hparse]
    rfl
  have hstart : (Session.ofId [] {}).Reachable := .start [] {}
  refine ⟨ht, hu, hfirst, hsecond, ?_⟩
  rw [((scripts_compose hstart ht hu).2 _ hfirst).1, hsecond]
  rfl

end SpanLisp
