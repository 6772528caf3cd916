import SpanLisp.Proofs.SessionState
import SpanLisp.Proofs.TwoEvaluations

/-! Two sessions that define the same names as the same values cannot be told apart, whatever
numbers their symbols have. -/

namespace SpanLisp

variable {t u : Interner}

/-! ### Listings -/

namespace Scope

variable {s s' : Scope}

/-- Same frames list the same names with the same values. -/
theorem Same.byName (h : s.Same t u s') (hs : s.Named t) (hs' : s'.Named u) (ht : t.names.Nodup)
    (hu : u.names.Nodup) :
    ∃ bs bs', s.byName t = .ok bs ∧ s'.byName u = .ok bs' ∧ s.size = s'.size ∧
      List.Forall₂ (fun b b' => b.1 = b'.1 ∧ b.2.Same t u b'.2) bs bs' := by
  obtain ⟨bs, hbs, hsorted, hmem, hsize⟩ := byName_of_named hs ht
  obtain ⟨bs', hbs', hsorted', hmem', hsize'⟩ := byName_of_named hs' hu
  have hall : List.Forall₂ (fun b b' => b.1 = b'.1 ∧ b.2.Same t u b'.2) bs bs' := by
    refine forall₂_of_sorted hsorted hsorted' (fun b hb => ?_) (fun b' hb' => ?_)
    · have hvalue := h.values b.1
      rw [(hmem b).1 hb] at hvalue
      obtain ⟨w, hw, hsame⟩ := exists_of_rel_left hvalue
      exact ⟨(b.1, w), (hmem' (b.1, w)).2 hw, rfl, hsame⟩
    · have hvalue := h.values b'.1
      rw [(hmem' b').1 hb'] at hvalue
      obtain ⟨v, hv, hsame⟩ := exists_of_rel_right hvalue
      exact ⟨(b'.1, v), (hmem (b'.1, v)).2 hv, rfl, hsame⟩
  exact ⟨bs, bs', hbs, hbs', by rw [← hsize, ← hsize', hall.length_eq], hall⟩

theorem Same.listing (h : s.Same t u s') (hs : s.Named t) (hs' : s'.Named u) (ht : t.names.Nodup)
    (hu : u.names.Nodup) (indent : Nat) : s.listing t indent = s'.listing u indent := by
  obtain ⟨bs, bs', hbs, hbs', -, hall⟩ := h.byName hs hs' ht hu
  have hlabel : s.label = s'.label := by
    rw [label, label, h.name_eq]
  have hlines (pad : Bytes) : collect (bindingLine t pad) bs = collect (bindingLine u pad) bs' := by
    refine collect_congr (hall.imp fun b b' hb => ?_)
    rw [bindingLine, bindingLine, hb.1, hb.2.display]
  rw [Scope.listing, Scope.listing, hbs, hbs']
  simp only [hlines, hlabel]

end Scope

namespace Stack

variable {s s' : Stack}

theorem frame_of_frameAt {place : Nat} {scope : Scope} (h : s.frameAt place = .ok scope) :
    s.frames[place]? = some (some scope) := by
  unfold frameAt at h
  split at h
  · rename_i hframe
    rwa [← Except.ok.inj h]
  · cases h

theorem Same.listingFrom (h : s.Same t u s') (hs : s.Holds (KnownBinding t))
    (hs' : s'.Holds (KnownBinding u)) (ht : t.names.Nodup) (hu : u.names.Nodup) (showGlobal : Bool)
    (fuel : Nat) (place : Option Nat) :
    s.listingFrom t showGlobal fuel place = s'.listingFrom u showGlobal fuel place := by
  induction fuel generalizing place with
  | zero => rfl
  | succ fuel ih =>
    cases place with
    | none => rfl
    | some place =>
      have hframe := h.frameAt place
      rw [Stack.listingFrom, Stack.listingFrom]
      generalize hf : s.frameAt place = f, hf' : s'.frameAt place = f' at hframe ⊢
      cases hframe with
      | error d => rfl
      | @ok scope scope' hscope =>
        have hn : scope.Named t := fun sym v hv => (hs place scope (frame_of_frameAt hf) sym v hv).1
        have hn' : scope'.Named u :=
          fun sym v hv => (hs' place scope' (frame_of_frameAt hf') sym v hv).1
        obtain ⟨-, -, -, -, hsize, -⟩ := hscope.byName hn hn' ht hu
        simp only [hiddenLine, hscope.name_eq, hsize, hscope.isGlobal_eq, hscope.parent_eq,
          hscope.listing hn hn' ht hu, ih]

end Stack

/-! ### Loading -/

namespace Stored

mutual

theorem same_toValue :
    ∀ (s : Stored) (t u : Interner),
      SameEnd (Value.Same (toValue t s).2 (toValue u s).2) (toValue t s).1 (toValue u s).1
  | nil, _, _ => .ok trivial
  | bool _, _, _ | integer _, _, _ | string _, _, _ => .ok rfl
  | keyword name, t, u => .ok (Interner.sameName_intern t u name)
  | function name, t, u => by
    rw [toValue, toValue]
    cases Builtin.find? name with
    | none => exact .error _
    | some index => exact .ok rfl
  | vector elems, t, u =>
    SameEnd.map (f := Value.vector) (g := Value.vector) (fun _ _ h => h) (same_toValues elems t u)
  | unlisted _, _, _ => .error _

theorem same_toValues :
    ∀ (ss : List Stored) (t u : Interner),
      SameEnd (Value.SameAll (toValues t ss).2 (toValues u ss).2) (toValues t ss).1
        (toValues u ss).1
  | [], _, _ => .ok trivial
  | s :: ss, t, u => by
    have h := same_toValue s t u
    rw [toValues, toValues]
    generalize toValue t s = r, toValue u s = r' at h ⊢
    obtain ⟨r, t₁⟩ := r
    obtain ⟨r', u₁⟩ := r'
    simp only at h
    cases h with
    | error e => exact .error e
    | ok h =>
      exact (same_toValues ss t₁ u₁).map fun _ _ hs =>
        ⟨h.mono (extends_toValues t₁ ss) (extends_toValues u₁ ss), hs⟩

end

end Stored

namespace Session

theorem same_revive :
    ∀ (es : List Entry) (t u : Interner),
      SameEnd (List.Forall₂ fun b b' => b.1 = b'.1 ∧ b.2.Same (revive t es).2 (revive u es).2 b'.2)
        (revive t es).1 (revive u es).1
  | [], _, _ => .ok .nil
  | e :: es, t, u => by
    have h := Stored.same_toValue e.value t u
    rw [revive, revive]
    generalize e.value.toValue t = r, e.value.toValue u = r' at h ⊢
    obtain ⟨r, t₁⟩ := r
    obtain ⟨r', u₁⟩ := r'
    simp only at h
    cases h with
    | error e => exact .error e
    | ok h =>
      exact (same_revive es t₁ u₁).map fun _ _ hs =>
        .cons ⟨rfl, h.mono (extends_revive es t₁) (extends_revive es u₁)⟩ hs

/-! ### Questions and answers -/

/-- What a session can be asked to do. -/
inductive Request where
  | parse (line : Bytes)
  | evalLine (line : Bytes)
  | evalScript (text : Bytes)
  | clear
  | save (format : Snapshot.Format)
  | load (t : Bytes)
  | list (showGlobal : Bool)

/-- A value as it can be seen from outside. -/
structure Seen where
  display : Except Defect Bytes
  json : Except Defect Bytes

/-- What is seen of the outcome of a request. -/
inductive Answer where
  | tree (result : Except SyntaxError Spelled)
  | value (result : Except Fault Seen) (events : List Event)
  | cleared (result : Except Defect Unit)
  | saved (result : Except Snapshot.Failure Bytes)
  | loaded (result : Except Snapshot.Failure Bytes) (events : List Event)
  | listed (result : Except Defect Bytes)

/-- A value as it can be seen from outside. -/
def see (names : Interner) (v : Value) : Seen := ⟨v.display names, v.json names⟩

/-- A snapshot without the identifier of the session. -/
def withoutId (t : Bytes) : Bytes := t.take 5 ++ t.drop 21

/-- A listing without the name of the stack. -/
def withoutName (s : Session) (text : Bytes) : Bytes :=
  text.drop (utf8 "stack " ++ s.stack.name).length

/-- The answer to a request and the session after it. -/
def ask (s : Session) : Request → Answer × Session
  | .parse line =>
    let r := s.parse line
    (.tree (r.1.map (Expr.spell r.2.names)), r.2)
  | .evalLine line =>
    let r := s.evalLine line
    (.value (r.result.map (see r.session.names)) r.events, r.session)
  | .evalScript text =>
    let r := s.evalScript text
    (.value (r.result.map (see r.session.names)) r.events, r.session)
  | .clear =>
    let r := s.clear
    (.cleared r.result, r.session)
  | .save format =>
    let r := s.save format
    (.saved (r.result.map withoutId), r.session)
  | .load t =>
    let r := s.load t
    (.loaded r.result r.events, r.session)
  | .list showGlobal => (.listed ((s.listing showGlobal).map s.withoutName), s)

/-- The answers to several requests, one after the other, and the session after them. -/
def askAll (s : Session) : List Request → List Answer × Session
  | [] => ([], s)
  | q :: qs =>
    let r := s.ask q
    let rs := askAll r.2 qs
    (r.1 :: rs.1, rs.2)

/-- Are the sessions configured alike, and do they define the same names as the same values? -/
structure Equivalent (a b : Session) : Prop where
  options_eq : a.options = b.options
  left_id : ∃ id, Uuid.parse a.id = .ok id
  right_id : ∃ id, Uuid.parse b.id = .ok id
  values (name : Bytes) :
    Option.Rel (Value.Same a.names b.names) (a.valueOf? name) (b.valueOf? name)

theorem Reachable.ask {s : Session} (h : s.Reachable) (q : Request) : (s.ask q).2.Reachable := by
  cases q with
  | parse line => exact h.parse line
  | evalLine line => exact h.evalLine line
  | evalScript text => exact h.evalScript text
  | clear => exact h.clear
  | save format => exact h.save format
  | load t => exact h.load t
  | list showGlobal => exact h

/-! ### Stacks of equivalent sessions -/

variable {a b : Session}

theorem same_globalScope (ht : (Interner.mk Builtin.names).Extends t)
    (hu : (Interner.mk Builtin.names).Extends u) : globalScope.Same t u globalScope where
  name_eq := rfl
  isGlobal_eq := rfl
  parent_eq := rfl
  values name := by
    have hknown (sym : Symbol) (v : Value) (h : globalScope.bindings[sym]? = some v) :
        KnownBinding ⟨Builtin.names⟩ sym v := knownBinding_builtins rfl h
    have hnamed : globalScope.Named ⟨Builtin.names⟩ := fun sym v h => (hknown sym v h).1
    have hnodup : Builtin.names.Nodup := by decide +kernel
    rw [hnamed.valueOf?_extends ht (ht.nodup hnodup), hnamed.valueOf?_extends hu (hu.nodup hnodup)]
    cases hv : globalScope.valueOf? ⟨Builtin.names⟩ name with
    | none => exact .none
    | some v =>
      obtain ⟨sym, -, hsym⟩ := Option.bind_eq_some_iff.1 hv
      exact .some ((hknown sym v hsym).2.same.mono ht hu)

theorem Equivalent.stack (h : a.Equivalent b) (ha : a.Reachable) (hb : b.Reachable)
    (ht : a.names.Extends t) (hu : b.names.Extends u) : a.stack.Same t u b.stack := by
  obtain ⟨bindings, hframes⟩ := ha.proper.frames
  obtain ⟨bindings', hframes'⟩ := hb.proper.frames
  refine ⟨by rw [ha.proper.height_eq, hb.proper.height_eq], by rw [hframes, hframes']; rfl,
    fun place => ?_⟩
  rw [hframes, hframes']
  match place with
  -- no definition ever reaches the frame of the builtins
  | 0 =>
    exact .some (.some (same_globalScope (ha.builtin_names.trans ht) (hb.builtin_names.trans hu)))
  | 1 =>
    refine .some (.some ⟨rfl, rfl, rfl, fun name => ?_⟩)
    rw [← (definitions_of_frames hframes).2, ← (definitions_of_frames hframes').2,
      ha.proper.named.valueOf?_extends ht (ht.nodup ha.proper.nodup),
      hb.proper.named.valueOf?_extends hu (hu.nodup hb.proper.nodup)]
    exact Value.rel_same_mono ht hu (h.values name)
  | _ + 2 => exact .none

/-- Sessions with the same stacks define the same names as the same values. -/
theorem rel_valueOf? (h : a.stack.Same a.names b.names b.stack) (name : Bytes) :
    Option.Rel (Value.Same a.names b.names) (a.valueOf? name) (b.valueOf? name) := by
  have hframe := h.frameAt userPlace
  rw [valueOf?, valueOf?, definitions, definitions, userScope, userScope]
  generalize a.stack.frameAt userPlace = f, b.stack.frameAt userPlace = f' at hframe ⊢
  cases hframe with
  | ok hscope => exact hscope.values name
  | error d =>
    have hnone (v : Interner) : Scope.valueOf? {} v name = none := Scope.valueOf?_named [] name
    simp only [Except.toOption, Option.getD_none, hnone]
    exact .none

theorem Equivalent.of_stack (h : a.Equivalent b) {a' b' : Session} (hid : a'.id = a.id)
    (hid' : b'.id = b.id) (hoptions : a'.options = a.options) (hoptions' : b'.options = b.options)
    (hstack : a'.stack.Same a'.names b'.names b'.stack) : a'.Equivalent b' where
  options_eq := by rw [hoptions, hoptions', h.options_eq]
  left_id := by rw [hid]; exact h.left_id
  right_id := by rw [hid']; exact h.right_id
  values := rel_valueOf? hstack

/-! ### Evaluating -/

/-- Replies that show the same and leave equivalent sessions. -/
structure SameReply (r r' : Reply (Except Fault Value)) : Prop where
  result : SameEnd (Value.Same r.session.names r'.session.names) r.result r'.result
  events_eq : r.events = r'.events
  session : r.session.Equivalent r'.session

theorem SameReply.seen_eq {r r' : Reply (Except Fault Value)} (h : SameReply r r') :
    r.result.map (see r.session.names) = r'.result.map (see r'.session.names) := by
  refine h.result.map_eq fun v w hvw => ?_
  rw [see, see, hvw.display, hvw.json]

theorem Equivalent.run (h : a.Equivalent b) (ha : a.Reachable) (hb : b.Reachable)
    (ht : a.names.Extends t) (hu : b.names.Extends u) {x y : EvalM Value}
    (hxy : Corresponds t u (Value.Same t u) x y) :
    SameReply ({ a with names := t }.run x) ({ b with names := u }.run y) := by
  have hmachine : Machine.Same t u a.machine b.machine :=
    ⟨h.stack ha hb ht hu, ha.proper.depth_eq.trans hb.proper.depth_eq.symm, rfl⟩
  obtain ⟨hend, hm⟩ := hxy a.machine b.machine hmachine
  exact ⟨hend, congrArg List.reverse hm.events_eq, h.of_stack rfl rfl rfl rfl hm.stack⟩

/-- What comes of a text that has been read: its syntax error, or a computation on its trees. -/
def afterReading {α : Type} (s : Session) (r : Except SyntaxError α × Interner)
    (f : α → EvalM Value) : Reply (Except Fault Value) :=
  match r.1 with
  | .error e => ⟨.error (.malformed e), { s with names := r.2 }, []⟩
  | .ok x => { s with names := r.2 }.run (f x)

theorem evalLine_eq_afterReading (s : Session) (line : Bytes) :
    s.evalLine line =
      s.afterReading (parseLine s.options.limit line s.names) (·.eval s.options line) := by
  rw [evalLine, Session.parse, afterReading]
  cases (parseLine s.options.limit line s.names).1 <;> rfl

theorem evalScript_eq_afterReading (s : Session) (text : Bytes) :
    s.evalScript text =
      s.afterReading (Parser.parse .script s.options.limit text s.names)
        (evalEach s.options text .nil) := by
  rw [evalScript, parseScript, parseAll, afterReading]
  cases (Parser.parse .script s.options.limit text s.names).1 <;> rfl

theorem Equivalent.afterReading (h : a.Equivalent b) (ha : a.Reachable) (hb : b.Reachable)
    {α : Type} {R : α → α → Prop} {r r' : Except SyntaxError α × Interner}
    (hread : SameEnd R r.1 r'.1) (ht : a.names.Extends r.2) (hu : b.names.Extends r'.2)
    {f g : α → EvalM Value}
    (hfg : ∀ x y, R x y → Corresponds r.2 r'.2 (Value.Same r.2 r'.2) (f x) (g y)) :
    SameReply (a.afterReading r f) (b.afterReading r' g) := by
  obtain ⟨r, t⟩ := r
  obtain ⟨r', u⟩ := r'
  simp only at hread ht hu hfg
  cases hread with
  | error e => exact ⟨.error _, rfl, h.of_stack rfl rfl rfl rfl (h.stack ha hb ht hu)⟩
  | ok hxy => exact h.run ha hb ht hu (hfg _ _ hxy)

theorem corresponds_evalEach (ht : t.names.Nodup) (hu : u.names.Nodup) (opts : EvalOptions)
    (source : Bytes) : ∀ {es es' : List Expr} {v w : Value}, v.Same t u w →
      Expr.SameAll t u es es' →
      Corresponds t u (Value.Same t u) (evalEach opts source v es) (evalEach opts source w es')
  | [], _, _, _, hvw, .nil => corresponds_value hvw
  | e :: _, _, _, _, _, .cons he hes =>
    (corresponds_eval ht hu e he).bind fun _ _ hvw => corresponds_evalEach ht hu opts source hvw hes

theorem Equivalent.evalLine (h : a.Equivalent b) (ha : a.Reachable) (hb : b.Reachable)
    (line : Bytes) : SameReply (a.evalLine line) (b.evalLine line) := by
  have ht := Parser.extends_parse .line b.options.limit line a.names
  have hu := Parser.extends_parse .line b.options.limit line b.names
  rw [evalLine_eq_afterReading, evalLine_eq_afterReading, h.options_eq]
  refine h.afterReading ha hb (same_parseLine _ line a.names b.names) ht hu fun e e' he => ?_
  exact corresponds_eval (ht.nodup ha.proper.nodup) (hu.nodup hb.proper.nodup) e he

theorem Equivalent.evalScript (h : a.Equivalent b) (ha : a.Reachable) (hb : b.Reachable)
    (text : Bytes) : SameReply (a.evalScript text) (b.evalScript text) := by
  have ht := Parser.extends_parse .script b.options.limit text a.names
  have hu := Parser.extends_parse .script b.options.limit text b.names
  rw [evalScript_eq_afterReading, evalScript_eq_afterReading, h.options_eq]
  refine h.afterReading ha hb (Parser.same_parse .script _ text a.names b.names) ht hu
    fun es es' hes => ?_
  exact corresponds_evalEach (ht.nodup ha.proper.nodup) (hu.nodup hb.proper.nodup) b.options text
    (v := .nil) (w := .nil) trivial hes

theorem Equivalent.parse (h : a.Equivalent b) (ha : a.Reachable) (hb : b.Reachable)
    (line : Bytes) :
    (a.parse line).1.map (Expr.spell (a.parse line).2.names) =
        (b.parse line).1.map (Expr.spell (b.parse line).2.names) ∧
      (a.parse line).2.Equivalent (b.parse line).2 := by
  have hread := same_parseLine a.options.limit line a.names b.names
  have ht := Parser.extends_parse .line a.options.limit line a.names
  have hu := Parser.extends_parse .line a.options.limit line b.names
  have hlimit : b.options.limit = a.options.limit := by rw [h.options_eq]
  rw [Session.parse, Session.parse, hlimit]
  exact ⟨hread.map_eq fun _ _ he => he.spell, h.of_stack rfl rfl rfl rfl (h.stack ha hb ht hu)⟩

/-! ### Clearing -/

theorem valueOf?_of_empty {s : Session}
    (h : s.stack.frames = #[some globalScope, some (userFrame ∅)]) (name : Bytes) :
    s.valueOf? name = none := by
  rw [valueOf?, (definitions_of_frames h).2]
  exact Scope.valueOf?_named userName name

theorem Equivalent.clear (h : a.Equivalent b) (ha : a.Reachable) (hb : b.Reachable) :
    a.clear.session.Equivalent b.clear.session := by
  refine ⟨h.options_eq, h.left_id, h.right_id, fun name => ?_⟩
  rw [valueOf?_of_empty ha.proper.frames_clear, valueOf?_of_empty hb.proper.frames_clear]
  exact .none

/-! ### Saving -/

/-- What is saved of the definitions depends on their names and values alone. -/
theorem Proper.entries_congr (ha : a.Proper) (hb : b.Proper)
    (h : ∀ name, Option.Rel (Value.Same a.names b.names) (a.valueOf? name) (b.valueOf? name)) :
    a.entries = b.entries := by
  obtain ⟨bindings, hframes⟩ := ha.frames
  obtain ⟨bindings', hframes'⟩ := hb.frames
  have hscope : a.definitions.Same a.names b.names b.definitions := by
    refine ⟨?_, ?_, ?_, h⟩ <;>
      rw [(definitions_of_frames hframes).2, (definitions_of_frames hframes').2] <;> rfl
  obtain ⟨bs, bs', hbs, hbs', -, hall⟩ := hscope.byName ha.named hb.named ha.nodup hb.nodup
  rw [Session.entries, Session.entries, ha.userScope, hb.userScope]
  simp only [hbs, hbs']
  refine Scope.collect_congr (hall.imp fun b b' hb => ?_)
  rw [hb.1, Stored.ofValue_of_same hb.2]

theorem Equivalent.entries (h : a.Equivalent b) (ha : a.Reachable) (hb : b.Reachable) :
    a.entries = b.entries :=
  ha.proper.entries_congr hb.proper h.values

theorem withoutId_frame (format : Snapshot.Format) {id : Bytes} (hid : id.length = 16)
    (payload : Bytes) :
    withoutId (Snapshot.frame format id payload) =
      (Snapshot.mark ++ [format.code]) ++
        (Checksum.toBytes (Checksum.ofBytes payload) ++ payload) := by
  have hmark : (Snapshot.mark ++ [format.code]).length = 5 := rfl
  have hframe : Snapshot.frame format id payload = (Snapshot.mark ++ [format.code]) ++
      (id ++ (Checksum.toBytes (Checksum.ofBytes payload) ++ payload)) := by
    simp only [Snapshot.frame, List.append_assoc, List.cons_append, List.nil_append]
  have hdrop : (Snapshot.frame format id payload).drop (5 + 16) =
      Checksum.toBytes (Checksum.ofBytes payload) ++ payload := by
    rw [hframe, ← List.drop_drop, List.drop_left' hmark, List.drop_left' hid]
  rw [withoutId, hdrop, hframe, List.take_left' hmark]

theorem Equivalent.save (h : a.Equivalent b) (ha : a.Reachable) (hb : b.Reachable)
    (format : Snapshot.Format) :
    (a.save format).result.map withoutId = (b.save format).result.map withoutId := by
  obtain ⟨id, hid⟩ := h.left_id
  obtain ⟨id', hid'⟩ := h.right_id
  rw [Session.save, Session.save, h.entries ha hb, hid, hid']
  cases b.entries with
  | error d => rfl
  | ok es =>
    simp only
    cases Snapshot.encode format es with
    | error e => rfl
    | ok payload =>
      show Except.ok (withoutId _) = Except.ok (withoutId _)
      rw [withoutId_frame format (Uuid.length_of_parse hid),
        withoutId_frame format (Uuid.length_of_parse hid')]

/-! ### Loading -/

theorem kept_bindAll :
    ∀ {bs : List (Bytes × Value)} {s s' : Session}, s.bindAll bs = .ok s' →
      s'.id = s.id ∧ s'.options = s.options
  | [], _, _, h => by
    cases h
    exact ⟨rfl, rfl⟩
  | _ :: _, _, _, h => by
    rw [Session.bindAll] at h
    split at h
    · cases h
    · obtain ⟨hid, hoptions⟩ := kept_bindAll h
      exact ⟨hid, hoptions⟩

theorem Equivalent.load (h : a.Equivalent b) (ha : a.Reachable) (hb : b.Reachable)
    (bytes : Bytes) :
    (a.load bytes).result = (b.load bytes).result ∧ (a.load bytes).events = (b.load bytes).events ∧
      (a.load bytes).session.Equivalent (b.load bytes).session := by
  rw [Session.load, Session.load]
  cases Snapshot.read bytes with
  | error e => exact ⟨rfl, rfl, h⟩
  | ok shot =>
    have hrevive := same_revive shot.entries a.names b.names
    have ht := extends_revive shot.entries a.names
    have hu := extends_revive shot.entries b.names
    have hknown (bs : List (Bytes × Value)) (hbs : (revive a.names shot.entries).1 = .ok bs) :=
      known_revive hbs
    have hknown' (bs : List (Bytes × Value)) (hbs : (revive b.names shot.entries).1 = .ok bs) :=
      known_revive hbs
    simp only
    generalize revive a.names shot.entries = r, revive b.names shot.entries = r'
      at hrevive ht hu hknown hknown' ⊢
    obtain ⟨r, t⟩ := r
    obtain ⟨r', u⟩ := r'
    have hstack := h.stack ha hb ht hu
    simp only at hrevive
    cases hrevive with
    | error e => exact ⟨rfl, rfl, h.of_stack rfl rfl rfl rfl hstack⟩
    | @ok bs bs' hall =>
      obtain ⟨a', hbind, -⟩ := Proper.bindAll (ha.proper.withNames ht) (hknown bs rfl)
      obtain ⟨b', hbind', -⟩ := Proper.bindAll (hb.proper.withNames hu) (hknown' bs' rfl)
      obtain ⟨hext, -, hvalues⟩ :=
        Proper.valueOf?_bindAll (ha.proper.withNames ht) (hknown bs rfl) hbind
      obtain ⟨hext', -, hvalues'⟩ :=
        Proper.valueOf?_bindAll (hb.proper.withNames hu) (hknown' bs' rfl) hbind'
      obtain ⟨hid, hoptions⟩ := kept_bindAll hbind
      obtain ⟨hid', hoptions'⟩ := kept_bindAll hbind'
      simp only [hbind, hbind', true_and]
      refine ⟨?_, ?_, ?_, fun name => ?_⟩
      · rw [hoptions, hoptions']
        exact h.options_eq
      · rw [hid]
        exact h.left_id
      · rw [hid']
        exact h.right_id
      · -- a name in the snapshot has its last value there, any other the value it had
        rw [hvalues, hvalues']
        have hlookup := lookup_of_forall₂ (List.forall₂_reverse_iff.2 hall) name
        exact Value.rel_same_mono hext hext' (rel_or hlookup (rel_valueOf? hstack name))

/-! ### Listing -/

theorem Equivalent.listing (h : a.Equivalent b) (ha : a.Reachable) (hb : b.Reachable)
    (showGlobal : Bool) :
    (a.listing showGlobal).map a.withoutName = (b.listing showGlobal).map b.withoutName := by
  have hstack := h.stack ha hb (.refl _) (.refl _)
  rw [Session.listing, Session.listing, Stack.listing, Stack.listing, hstack.height_eq,
    hstack.topPlace?_eq, hstack.listingFrom ha.proper.known hb.proper.known ha.proper.nodup
      hb.proper.nodup]
  cases b.stack.listingFrom b.names showGlobal b.stack.height b.stack.topPlace? with
  | error d => rfl
  | ok text =>
    have hdrop (s : Session) (rest : Bytes) :
        s.withoutName (utf8 "stack " ++ (s.stack.name ++ rest)) = rest := by
      rw [← List.append_assoc]
      exact List.drop_left
    show Except.ok (a.withoutName _) = Except.ok (b.withoutName _)
    simp only [List.append_assoc, hdrop]

/-! ### Every request -/

/-- Equivalent sessions answer a request alike and stay equivalent. -/
theorem Equivalent.ask (h : a.Equivalent b) (ha : a.Reachable) (hb : b.Reachable) (q : Request) :
    (a.ask q).1 = (b.ask q).1 ∧ (a.ask q).2.Equivalent (b.ask q).2 := by
  cases q with
  | parse line =>
    obtain ⟨htree, hafter⟩ := h.parse ha hb line
    exact ⟨congrArg Answer.tree htree, hafter⟩
  | evalLine line =>
    have hreply := h.evalLine ha hb line
    exact ⟨congrArg₂ Answer.value hreply.seen_eq hreply.events_eq, hreply.session⟩
  | evalScript text =>
    have hreply := h.evalScript ha hb text
    exact ⟨congrArg₂ Answer.value hreply.seen_eq hreply.events_eq, hreply.session⟩
  | clear =>
    have hresult := ha.proper.result_clear.trans hb.proper.result_clear.symm
    exact ⟨congrArg Answer.cleared hresult, h.clear ha hb⟩
  | save format =>
    refine ⟨congrArg Answer.saved (h.save ha hb format), ?_⟩
    show (a.save format).session.Equivalent (b.save format).session
    rw [session_save, session_save]
    exact h
  | load bytes =>
    obtain ⟨hresult, hevents, hafter⟩ := h.load ha hb bytes
    exact ⟨congrArg₂ Answer.loaded hresult hevents, hafter⟩
  | list showGlobal => exact ⟨congrArg Answer.listed (h.listing ha hb showGlobal), h⟩

/-- Equivalent sessions answer any requests alike and stay equivalent. -/
theorem Equivalent.askAll :
    ∀ (qs : List Request) {a b : Session}, a.Equivalent b → a.Reachable → b.Reachable →
      (a.askAll qs).1 = (b.askAll qs).1 ∧ (a.askAll qs).2.Equivalent (b.askAll qs).2
  | [], _, _, h, _, _ => ⟨rfl, h⟩
  | q :: qs, _, _, h, ha, hb => by
    obtain ⟨hfirst, hafter⟩ := h.ask ha hb q
    obtain ⟨hrest, hend⟩ := Equivalent.askAll qs hafter (ha.ask q) (hb.ask q)
    exact ⟨congrArg₂ List.cons hfirst hrest, hend⟩

/-- After clearing, a session is as good as new. -/
theorem Equivalent.clear_start (ha : a.Reachable) {id uuid uuid' : Bytes}
    (hid : Uuid.parse a.id = .ok uuid) (hid' : Uuid.parse id = .ok uuid') :
    a.clear.session.Equivalent (start id a.options).session := by
  refine ⟨rfl, ⟨uuid, hid⟩, ⟨uuid', hid'⟩, fun name => ?_⟩
  rw [valueOf?_of_empty ha.proper.frames_clear, valueOf?_of_empty rfl]
  exact .none

/-- Sessions that define the same names as the same values give the same answers to any requests and
stay so; and a cleared session gives the answers of a new one, whatever happened to it before. -/
theorem answers_determined_by_definitions (ha : a.Reachable) (hb : b.Reachable)
    (h : a.Equivalent b) (qs : List Request) :
    (a.askAll qs).1 = (b.askAll qs).1 ∧ (a.askAll qs).2.Equivalent (b.askAll qs).2 ∧
      ∀ id uuid, Uuid.parse id = .ok uuid →
        (a.clear.session.askAll qs).1 = ((start id a.options).session.askAll qs).1 ∧
          (a.clear.session.askAll qs).2.Equivalent
            ((start id a.options).session.askAll qs).2 := by
  obtain ⟨hanswers, hend⟩ := h.askAll qs ha hb
  refine ⟨hanswers, hend, fun id uuid hid' => ?_⟩
  obtain ⟨uuid₀, hid⟩ := h.left_id
  exact (Equivalent.clear_start ha hid hid').askAll qs ha.clear (.start id a.options)

/-- A builtin shadowed by a keyword that has the number 9 in one session and 11 in the other. -/
theorem answers_determined_after_shadowing :
    let a := ((start (utf8 "00112233-4455-4677-8899-aabbccddeeff") {}).session.evalLine
      (utf8 "(def! + :k)")).session
    let b := ((start (utf8 "ffeeddccbbaa99887766554433221100") {}).session.evalLine
      (utf8 "(def! + (if :other :k nil))")).session
    let qs : List Request :=
      [.list true, .evalLine (utf8 "(+ 1 2)"), .save .cbor, .clear,
        .evalScript (utf8 "[+ :k] (+ 1 2")]
    a.Equivalent b ∧ (a.askAll qs).1 = (b.askAll qs).1 ∧
      (a.clear.session.askAll qs).1 =
        ((start (utf8 "ffeeddccbbaa99887766554433221100") a.options).session.askAll qs).1 := by
  have hparse : parseLine 10000 (utf8 "(def! + :k)") ⟨Builtin.names⟩ =
      (.ok (.list ⟨0, 11⟩ [.operator ⟨1, 5⟩ .define, .symbol ⟨6, 7⟩ 0, .keyword ⟨8, 10⟩ 9]),
        ⟨Builtin.names ++ [utf8 "def!", utf8 "k"]⟩) := by
    unfold parseLine Parser.parse
    rw [ByteLexer.tokens_eq_scan]
    rfl
  have hparse' : parseLine 10000 (utf8 "(def! + (if :other :k nil))") ⟨Builtin.names⟩ =
      (.ok (.list ⟨0, 27⟩ [.operator ⟨1, 5⟩ .define, .symbol ⟨6, 7⟩ 0,
          .list ⟨8, 26⟩ [.operator ⟨9, 11⟩ .cond, .keyword ⟨12, 18⟩ 10, .keyword ⟨19, 21⟩ 11,
            .nil ⟨22, 25⟩]]),
        ⟨Builtin.names ++ [utf8 "def!", utf8 "if", utf8 "other", utf8 "k"]⟩) := by
    unfold parseLine Parser.parse
    rw [ByteLexer.tokens_eq_scan]
    rfl
  intro a b qs
  have ha : a = _ := evalLine_start hparse
  have hb : b = _ := evalLine_start hparse'
  have hframes : a.stack.frames =
      #[some globalScope, some (userFrame ((∅ : Bindings).insert 0 (.keyword 9)))] := by
    rw [ha]
    rfl
  have hframes' : b.stack.frames =
      #[some globalScope, some (userFrame ((∅ : Bindings).insert 0 (.keyword 11)))] := by
    rw [hb]
    rfl
  have hname : a.names.find? (utf8 "+") = some 0 := by
    rw [ha]
    decide +kernel
  have hname' : b.names.find? (utf8 "+") = some 0 := by
    rw [hb]
    decide +kernel
  have hsame : (Value.keyword 9).Same a.names b.names (.keyword 11) := by
    refine ⟨utf8 "k", ?_, ?_⟩
    · rw [ha]
      rfl
    · rw [hb]
      rfl
  have hid : ∃ id, Uuid.parse a.id = .ok id := by
    refine ⟨[0x00, 0x11, 0x22, 0x33, 0x44, 0x55, 0x46, 0x77, 0x88, 0x99, 0xaa, 0xbb, 0xcc, 0xdd,
      0xee, 0xff], ?_⟩
    rw [ha]
    decide +kernel
  have huuid : Uuid.parse (utf8 "ffeeddccbbaa99887766554433221100") = .ok [0xff, 0xee, 0xdd, 0xcc,
      0xbb, 0xaa, 0x99, 0x88, 0x77, 0x66, 0x55, 0x44, 0x33, 0x22, 0x11, 0x00] := by
    decide +kernel
  have hequivalent : a.Equivalent b := by
    refine ⟨by rw [ha, hb], hid, ⟨_, by rw [hb]; exact huuid⟩, fun name => ?_⟩
    by_cases hplus : name = utf8 "+"
    · rw [(valueOf?_single hframes hname).2 ⟨hplus, rfl⟩,
        (valueOf?_single hframes' hname').2 ⟨hplus, rfl⟩]
      exact .some hsame
    · have hnone : a.valueOf? name = none := by
        refine Option.eq_none_iff_forall_ne_some.2 fun v hv => hplus ?_
        exact ((valueOf?_single hframes hname).1 hv).1
      have hnone' : b.valueOf? name = none := by
        refine Option.eq_none_iff_forall_ne_some.2 fun v hv => hplus ?_
        exact ((valueOf?_single hframes' hname').1 hv).1
      rw [hnone, hnone']
      exact .none
  have hreachable : a.Reachable := (Reachable.start _ _).evalLine _
  have hreachable' : b.Reachable := (Reachable.start _ _).evalLine _
  obtain ⟨hanswers, -, hfresh⟩ :=
    answers_determined_by_definitions hreachable hreachable' hequivalent qs
  exact ⟨hequivalent, hanswers, (hfresh _ _ huuid).1⟩

end Session

end SpanLisp
