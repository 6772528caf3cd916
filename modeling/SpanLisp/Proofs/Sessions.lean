import SpanLisp.Session
import SpanLisp.Proofs.EvalSafety

/-!
# Sessions between operations

Between operations the stack of a session holds the global frame and the user frame, every binding
is known to its interner, and no evaluation is in progress (`Session.Proper`).  A new session is
proper, and every operation keeps a session proper, whether it succeeds or fails; so every session
that can be reached is proper (`Reachable.proper`).  On a proper session, evaluating a text ends
with a known value, a syntax error within the text or an evaluation error at a node of its trees
(`Ends`, `Proper.evalLine`, `Proper.evalScript`).
-/

namespace SpanLisp.Session

/-- The user frame with the given definitions. -/
def userFrame (bindings : Bindings) : Scope :=
  { bindings := bindings, name := userName, parent := some 0 }

/-- What holds of a session between operations. -/
structure Proper (s : Session) : Prop where
  /-- The frames are the global frame and the user frame. -/
  frames : ∃ bindings, s.stack.frames = #[some globalScope, some (userFrame bindings)]
  /-- Both are in use. -/
  height_eq : s.stack.height = 2
  /-- There is room for a frame. -/
  capacity_pos : 0 < s.stack.capacity
  /-- All bindings are known. -/
  known : s.stack.Holds (KnownBinding s.names)
  /-- No name has two symbols. -/
  nodup : s.names.names.Nodup
  /-- No evaluation is in progress. -/
  depth_eq : s.depth = 0

/-! ### Beginning -/

theorem getElem?_insertFunctions (sym : Symbol) :
    ∀ (places : List Nat) (bs : Bindings),
      (places.foldl (fun bs i => bs.insert i (.function i)) bs)[sym]? =
        if sym ∈ places then some (.function sym) else bs[sym]?
  | [], bs => by simp
  | i :: places, bs => by
    rw [List.foldl_cons, getElem?_insertFunctions sym places, Std.ExtTreeMap.getElem?_insert]
    by_cases hmem : sym ∈ places
    · simp [hmem]
    · by_cases hi : i = sym
      · subst hi
        simp [hmem]
      · have hsym : ¬ sym = i := fun h => hi h.symm
        simp [hmem, hi, hsym]

/-- The global frame binds each place of the table to the function there. -/
theorem getElem?_builtins (sym : Symbol) :
    builtins[sym]? = if sym < Builtin.names.length then some (.function sym) else none := by
  unfold builtins
  rw [getElem?_insertFunctions]
  simp

theorem names_ofId (id : Bytes) (options : EvalOptions) :
    (ofId id options).names.names = Builtin.names := by
  show (Interner.empty.internAll Builtin.names).names = Builtin.names
  decide +kernel

theorem knownBinding_builtins {names : Interner} (hsize : names.size = Builtin.names.length)
    {sym : Symbol} {v : Value} (h : builtins[sym]? = some v) : KnownBinding names sym v := by
  rw [getElem?_builtins] at h
  split at h
  · rename_i hlt
    cases h
    refine ⟨by rw [hsize]; exact hlt, Builtin.get?_of_lt ?_⟩
    rwa [Builtin.names, List.length_map] at hlt
  · cases h

theorem proper_ofId (id : Bytes) (options : EvalOptions) : (ofId id options).Proper where
  frames := ⟨∅, rfl⟩
  height_eq := rfl
  capacity_pos := Nat.succ_pos 7
  known := by
    have hsize : (ofId id options).names.size = Builtin.names.length :=
      congrArg List.length (names_ofId id options)
    have hframes : (ofId id options).stack.frames =
      #[some globalScope, some (userFrame ∅)] := rfl
    exact Stack.holds_of_frames hframes (fun _ _ h => knownBinding_builtins hsize h)
      (fun _ _ h => by simp [userFrame] at h)
  nodup := by
    rw [names_ofId]
    decide +kernel
  depth_eq := rfl

variable {s : Session}

/-! ### Names and frames -/

theorem Proper.withNames (hs : s.Proper) {names : Interner} (hn : s.names.Extends names) :
    { s with names := names }.Proper where
  frames := hs.frames
  height_eq := hs.height_eq
  capacity_pos := hs.capacity_pos
  known := hs.known.mono fun _ _ h => h.mono hn
  nodup := hn.nodup hs.nodup
  depth_eq := hs.depth_eq

/-- The machine that evaluation starts from. -/
def machine (s : Session) : Machine := { stack := s.stack, depth := s.depth }

theorem Proper.wellFormed (hs : s.Proper) : s.stack.WellFormed := by
  obtain ⟨bindings, hframes⟩ := hs.frames
  refine ⟨by rw [hframes, hs.height_eq]; rfl, ?_⟩
  intro place hplace
  rw [hs.height_eq] at hplace
  rw [hframes]
  match place with
  | 0 => exact ⟨_, rfl, fun _ h => nomatch h⟩
  | 1 => exact ⟨_, rfl, fun outer h => by cases h; exact Nat.zero_lt_one⟩

theorem Proper.sound (hs : s.Proper) : s.machine.Sound s.names :=
  ⟨hs.wellFormed, by rw [machine, hs.height_eq]; exact Nat.zero_lt_two, hs.known⟩

/-- What evaluation keeps, a session keeps. -/
theorem Proper.of_kept (hs : s.Proper) {m : Machine} (h : s.machine.Kept s.names m) :
    { s with stack := m.stack, depth := m.depth }.Proper where
  frames := by
    obtain ⟨bindings, hframes⟩ := hs.frames
    have hsize : m.stack.frames.size = 2 := by
      rw [h.change.size_eq]
      exact congrArg Array.size hframes
    have hheight : s.machine.stack.height = 2 := hs.height_eq
    have hglobal : m.stack.frames[0]? = some (some globalScope) := by
      rw [h.change.below 0 (by rw [hheight]; decide), machine, hframes]
      rfl
    have htop := h.change.top (userFrame bindings) (by rw [hheight, machine, hframes]; rfl)
    rw [hheight] at htop
    obtain ⟨bindings', huser⟩ := htop
    refine ⟨bindings', Array.ext_getElem? fun place => ?_⟩
    match place with
    | 0 => exact hglobal
    | 1 => exact huser
    | n + 2 => rw [Array.getElem?_eq_none (by simp only [hsize]; omega)]; rfl
  height_eq := h.change.height_eq.trans hs.height_eq
  capacity_pos := Nat.lt_of_lt_of_le hs.capacity_pos h.change.capacity_le
  known := h.holds
  nodup := hs.nodup
  depth_eq := h.depth_eq.trans hs.depth_eq

theorem Proper.run (hs : s.Proper) {α : Type} {x : EvalM α}
    (hx : s.machine.Kept s.names (x s.machine).2) : (s.run x).session.Proper :=
  hs.of_kept hx

/-! ### Clearing -/

theorem Proper.renewUserFrame (hs : s.Proper) : Session.renewUserFrame s.stack = (.ok (),
    { s.stack with frames := #[some globalScope], height := 1 }.withNamed userName) := by
  obtain ⟨bindings, hframes⟩ := hs.frames
  have hroom : 1 ≤ s.stack.room := by
    unfold Stack.room
    rw [hframes]
    exact Nat.le_trans (Nat.le_succ 1) (Nat.le_max_left _ _)
  have htruncate : Stack.truncate 1 s.stack =
      (.ok (), { s.stack with frames := #[some globalScope], height := 1 }) := by
    have h := Stack.truncate_of_le hroom
    rw [hframes] at h
    exact h
  unfold Session.renewUserFrame
  rw [StackM.bind_of_ok htruncate]
  exact Stack.pushNamed_of_size_eq rfl userName

/-- The definitions of a session can be forgotten without a defect. -/
theorem Proper.result_clear (hs : s.Proper) : s.clear.result = .ok () :=
  congrArg Prod.fst hs.renewUserFrame

theorem Proper.stack_clear (hs : s.Proper) : s.clear.session.stack =
    { s.stack with frames := #[some globalScope], height := 1 }.withNamed userName :=
  congrArg Prod.snd hs.renewUserFrame

theorem Proper.frames_clear (hs : s.Proper) :
    s.clear.session.stack.frames = #[some globalScope, some (userFrame ∅)] := by
  rw [hs.stack_clear]
  rfl

theorem Proper.clear (hs : s.Proper) : s.clear.session.Proper := by
  refine ⟨⟨∅, hs.frames_clear⟩, ?_, ?_, ?_, hs.nodup, hs.depth_eq⟩
  · rw [hs.stack_clear]
    rfl
  · rw [hs.stack_clear]
    exact Nat.lt_of_lt_of_le hs.capacity_pos (Stack.capacity_le_withNamed
      { s.stack with frames := #[some globalScope], height := 1 } _)
  · have hglobal : s.stack.frames[0]? = some (some globalScope) := by
      obtain ⟨bindings, hframes⟩ := hs.frames
      rw [hframes]
      rfl
    exact Stack.holds_of_frames hs.frames_clear (hs.known 0 _ hglobal)
      (fun _ _ h => by simp [userFrame] at h)

/-! ### Loading -/

theorem extends_revive :
    ∀ (es : List Entry) (names : Interner), names.Extends (revive names es).2
  | [], names => Interner.Extends.refl names
  | e :: es, names => by
    have h := Stored.extends_toValue names e.value
    rw [revive]
    split
    · rename_i he
      rwa [he] at h
    · rename_i he
      rw [he] at h
      exact h.trans (extends_revive es _)

theorem known_revive :
    ∀ {es : List Entry} {names : Interner} {bs : List (Bytes × Value)},
      (revive names es).1 = .ok bs → ∀ b ∈ bs, b.2.Known (revive names es).2
  | [], _, _, rfl, _, hb => nomatch hb
  | e :: es, names, bs, h, b, hb => by
    rw [revive] at h ⊢
    rcases he : e.value.toValue names with ⟨r, names'⟩
    rw [he] at h
    cases r with
    | error f => cases h
    | ok v =>
      have hknown : v.Known names' := by
        have := Stored.known_toValue (congrArg Prod.fst he)
        rwa [he] at this
      simp only at h ⊢
      cases hrest : (revive names' es).1 with
      | error f =>
        rw [hrest] at h
        cases h
      | ok bs' =>
        rw [hrest] at h
        cases h
        rcases List.mem_cons.1 hb with rfl | hb
        · exact hknown.mono (extends_revive es names')
        · exact known_revive hrest b hb

theorem Proper.bindAt (hs : s.Proper) {sym : Symbol} {v : Value}
    (h : KnownBinding s.names sym v) :
    ∃ stack, Stack.bindAt userPlace sym v s.stack = (.ok (), stack) ∧
      { s with stack := stack }.Proper := by
  obtain ⟨bindings, hframes⟩ := hs.frames
  have huser : s.stack.frames[userPlace]? = some (some (userFrame bindings)) := by
    rw [hframes]
    rfl
  refine ⟨_, Stack.bindAt_of_frame huser sym v, ?_⟩
  refine ⟨⟨bindings.insert sym v, ?_⟩, hs.height_eq, hs.capacity_pos, ?_, hs.nodup, hs.depth_eq⟩
  · simp only [hframes]
    rfl
  · exact hs.known.setIfInBounds _ (Stack.holds_bind (hs.known _ _ huser) h)

/-- Known values can be bound to any names. -/
theorem Proper.bindAll :
    ∀ {bs : List (Bytes × Value)} {s : Session}, s.Proper → (∀ b ∈ bs, b.2.Known s.names) →
      ∃ s', s.bindAll bs = .ok s' ∧ s'.Proper
  | [], s, hs, _ => ⟨s, rfl, hs⟩
  | (name, v) :: bs, s, hs, hknown => by
    have hn := Interner.extends_intern s.names name
    have hbinding : KnownBinding (s.names.intern name).2 (s.names.intern name).1 v :=
      ⟨Interner.lt_size_of_find? (Interner.find?_intern s.names name),
        (hknown _ List.mem_cons_self).mono hn⟩
    obtain ⟨stack, hbind, hproper⟩ := (hs.withNames hn).bindAt hbinding
    rw [Session.bindAll]
    simp only at hbind ⊢
    rw [hbind]
    exact Proper.bindAll hproper fun b hb => (hknown b (List.mem_cons_of_mem _ hb)).mono hn

theorem Proper.load (hs : s.Proper) (t : Bytes) : (s.load t).session.Proper := by
  unfold Session.load
  split
  · exact hs
  · rename_i shot _
    have hn := extends_revive shot.entries s.names
    split
    · rename_i hrevive
      rw [hrevive] at hn
      exact hs.withNames hn
    · rename_i bs names hrevive
      have hknown := known_revive (congrArg Prod.fst hrevive)
      rw [hrevive] at hn hknown
      obtain ⟨s', hbind, hproper⟩ := Proper.bindAll (hs.withNames hn) hknown
      rw [hbind]
      exact hproper

theorem session_save (s : Session) (format : Snapshot.Format) : (s.save format).session = s := by
  unfold save
  repeat' split
  all_goals rfl

/-! ### Evaluating -/

/-- The span belongs to a node of the trees and covers bytes of the text. -/
def AtNode (text : Bytes) (es : List Expr) (span : Span) : Prop :=
  (∃ n ∈ Expr.nodesAll es, n.span = span) ∧ span.lo < span.hi ∧ span.hi ≤ text.length

/-- How evaluating a text ends, given what its reading comes to: with its syntax error, with a known
value, or with an evaluation error at a node of its trees. -/
def Ends (text : Bytes) (trees : Except SyntaxError (List Expr)) (names : Interner)
    (r : Except Fault Value) : Prop :=
  match trees with
  | .error e => r = .error (.malformed e) ∧ e.span.Within text.length
  | .ok es => Fine (AtNode text es) (Value.Known names) r

theorem ready_of_parse {mode : Parser.Mode} {limit : Nat} {text : Bytes} {names names' : Interner}
    {es : List Expr} (h : Parser.parse mode limit text names = (.ok es, names')) :
    Ready text names' (AtNode text es) false es :=
  ⟨(Parser.parse_ok h).2, Parser.fits_of_parse h,
    fun n hn => ⟨⟨n, hn, rfl⟩, Parser.spans_of_parse h n hn⟩⟩

theorem safe_evalEach {source : Bytes} {names : Interner} {S : Span → Prop} (opts : EvalOptions) :
    ∀ {es : List Expr} {last : Value}, Ready source names S false es → last.Known names →
      Safe names S (Value.Known names) (evalEach opts source last es)
  | [], _, _, hlast => safe_pure hlast
  | _ :: _, _, h, _ => (safe_eval opts h.first).bind fun _ hv => safe_evalEach opts h.rest hv

/-- Nothing at all evaluates to `nil`, whatever the limit. -/
theorem eval_nil {opts : EvalOptions} {m : Machine} (hdepth : m.depth = 0) (source : Bytes)
    (span : Span) : (Expr.nil span).eval opts source m = (.ok .nil, m) := by
  obtain ⟨stack, depth, events⟩ := m
  cases hdepth
  show EvalM.guarded opts span (pure Value.nil) ⟨stack, 0, events⟩ = _
  unfold EvalM.guarded
  simp only
  rw [if_neg (by omega)]
  rfl

/-- The expression of a line evaluates to a known value or fails at one of its nodes. -/
theorem eval_line {limit : Nat} {line : Bytes} {names names' : Interner} {e : Expr}
    (h : parseLine limit line names = (.ok e, names')) (opts : EvalOptions) {m : Machine}
    (hm : m.Sound names') (hdepth : m.depth = 0) :
    Fine (AtNode line [e]) (Value.Known names') (e.eval opts line m).1 ∧
      m.Kept names' (e.eval opts line m).2 := by
  obtain ⟨es, hparse, rfl⟩ := parse_of_parseLine h
  cases es with
  | nil =>
    -- The `nil` of a blank line covers no bytes, so it must not fail, not even by the limit.
    show Fine _ _ ((Expr.nil _).eval opts line m).1 ∧ _
    rw [List.headD_nil, eval_nil hdepth]
    exact ⟨trivial, hm.kept⟩
  | cons e rest =>
    have hready : Ready line names' (AtNode line [e]) false [e] := by
      refine (ready_of_parse hparse).first.withSpans fun n hn => ⟨⟨n, hn, rfl⟩, ?_⟩
      rw [Expr.nodesAll, Expr.nodesAll, List.append_nil] at hn
      exact Parser.spans_of_parse hparse n (List.mem_append_left _ hn)
    exact safe_eval opts hready m hm

theorem Proper.parse (hs : s.Proper) (line : Bytes) : (s.parse line).2.Proper :=
  hs.withNames (Parser.extends_parse .line s.options.limit line s.names)

theorem Proper.parseScript (hs : s.Proper) (text : Bytes) : (s.parseScript text).2.Proper :=
  hs.withNames (Parser.extends_parse .script s.options.limit text s.names)

/-- Evaluating a line keeps the session proper and ends well. -/
theorem Proper.evalLine (hs : s.Proper) (line : Bytes) :
    (s.evalLine line).session.Proper ∧
      Ends line ((s.parse line).1.map fun e => [e]) (s.evalLine line).session.names
        (s.evalLine line).result := by
  have hproper := hs.parse line
  rcases hparse : parseLine s.options.limit line s.names with ⟨r, names'⟩
  have hread : s.parse line = (r, { s with names := names' }) := by
    unfold Session.parse
    rw [hparse]
  unfold Session.evalLine
  rw [hread] at hproper ⊢
  cases r with
  | error e => exact ⟨hproper, rfl, Parser.parse_error (parse_of_parseLine_error hparse)⟩
  | ok e =>
    obtain ⟨hfine, hkept⟩ := eval_line hparse s.options hproper.sound hs.depth_eq
    exact ⟨hproper.run hkept, hfine⟩

/-- Evaluating a script keeps the session proper and ends well. -/
theorem Proper.evalScript (hs : s.Proper) (text : Bytes) :
    (s.evalScript text).session.Proper ∧
      Ends text (s.parseScript text).1 (s.evalScript text).session.names
        (s.evalScript text).result := by
  have hproper := hs.parseScript text
  rcases hparse : parseAll s.options.limit text s.names with ⟨r, names'⟩
  have hread : s.parseScript text = (r, { s with names := names' }) := by
    unfold Session.parseScript
    rw [hparse]
  unfold Session.evalScript
  rw [hread] at hproper ⊢
  cases r with
  | error e => exact ⟨hproper, rfl, Parser.parse_error hparse⟩
  | ok es =>
    have hlast : Value.nil.Known names' := trivial
    obtain ⟨hfine, hkept⟩ :=
      safe_evalEach s.options (ready_of_parse hparse) hlast _ hproper.sound
    exact ⟨hproper.run hkept, hfine⟩

/-! ### Reachable sessions -/

/-- The sessions that operations lead to from a new one. -/
inductive Reachable : Session → Prop
  /-- A new session, with any limit. -/
  | start (id : Bytes) (options : EvalOptions) : Reachable (start id options).session
  /-- After reading a line. -/
  | parse {s : Session} (h : Reachable s) (line : Bytes) : Reachable (s.parse line).2
  /-- After evaluating a line. -/
  | evalLine {s : Session} (h : Reachable s) (line : Bytes) : Reachable (s.evalLine line).session
  /-- After evaluating a script. -/
  | evalScript {s : Session} (h : Reachable s) (text : Bytes) :
      Reachable (s.evalScript text).session
  /-- After forgetting the definitions. -/
  | clear {s : Session} (h : Reachable s) : Reachable s.clear.session
  /-- After saving. -/
  | save {s : Session} (h : Reachable s) (format : Snapshot.Format) :
      Reachable (s.save format).session
  /-- After loading any bytes. -/
  | load {s : Session} (h : Reachable s) (t : Bytes) : Reachable (s.load t).session

theorem Reachable.proper (h : s.Reachable) : s.Proper := by
  induction h with
  | start id options => exact proper_ofId id options
  | parse _ line ih => exact ih.parse line
  | evalLine _ line ih => exact (ih.evalLine line).1
  | evalScript _ text ih => exact (ih.evalScript text).1
  | clear _ ih => exact ih.clear
  | save _ format ih => rwa [session_save]
  | load _ t ih => exact ih.load t

end SpanLisp.Session
