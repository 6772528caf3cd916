import SpanLisp.Proofs.Restoration
import SpanLisp.Proofs.TwoTables

/-! What every session looks like between operations, however these end. -/

namespace SpanLisp.Session

variable {s : Session}

/-! ### The names of a session only grow -/

theorem names_evalLine (s : Session) (line : Bytes) :
    (s.evalLine line).session.names = (s.parse line).2.names := by
  rw [evalLine]
  rcases s.parse line with ⟨r, s'⟩
  cases r <;> rfl

theorem names_evalScript (s : Session) (text : Bytes) :
    (s.evalScript text).session.names = (s.parseScript text).2.names := by
  rw [evalScript]
  rcases s.parseScript text with ⟨r, s'⟩
  cases r <;> rfl

theorem Proper.extends_load (hs : s.Proper) (t : Bytes) :
    s.names.Extends (s.load t).session.names := by
  rw [Session.load]
  split
  · exact .refl _
  · rename_i shot _
    have hn := extends_revive shot.entries s.names
    split
    · rename_i hrevive
      rwa [hrevive] at hn
    · rename_i bs names hrevive
      have hknown := known_revive (congrArg Prod.fst hrevive)
      rw [hrevive] at hn hknown
      obtain ⟨s', hbind, -⟩ := Proper.bindAll (hs.withNames hn) hknown
      rw [hbind]
      exact hn.trans (Proper.valueOf?_bindAll (hs.withNames hn) hknown hbind).1

/-- The builtins keep the symbols that the table's order gives them. -/
theorem Reachable.builtin_names (h : s.Reachable) :
    (Interner.mk Builtin.names).Extends s.names := by
  induction h with
  | start id options =>
    have hnames : (ofId id options).names = ⟨Builtin.names⟩ :=
      congrArg Interner.mk (names_ofId id options)
    exact hnames ▸ .refl _
  | @parse s _ line ih => exact ih.trans (Parser.extends_parse .line s.options.limit line s.names)
  | @evalLine s _ line ih =>
    rw [names_evalLine]
    exact ih.trans (Parser.extends_parse .line s.options.limit line s.names)
  | @evalScript s _ text ih =>
    rw [names_evalScript]
    exact ih.trans (Parser.extends_parse .script s.options.limit text s.names)
  | clear _ ih => exact ih
  | save _ format ih => rwa [session_save]
  | load hs t ih => exact ih.trans (hs.proper.extends_load t)

theorem getElem?_builtins_iff {names : Interner} (hn : (Interner.mk Builtin.names).Extends names)
    (hnodup : names.names.Nodup) (sym : Symbol) (v : Value) :
    builtins[sym]? = some v ↔
      ∃ (index : Nat) (f : Builtin), Builtin.table[index]? = some f ∧
        names.name? sym = some f.name ∧ v = .function index := by
  have hname {index : Nat} {f : Builtin} (hf : Builtin.table[index]? = some f) :
      names.name? index = some f.name := by
    refine hn.name? ?_
    rw [Interner.name?, Builtin.names, List.getElem?_map, hf]
    rfl
  rw [getElem?_builtins]
  constructor
  · intro h
    split at h
    · rename_i hlt
      rw [Builtin.names, List.length_map] at hlt
      have hf := List.getElem?_eq_getElem hlt
      exact ⟨sym, _, hf, hname hf, (Option.some.inj h).symm⟩
    · cases h
  · rintro ⟨index, f, hf, hsym, rfl⟩
    have hindex := (Interner.find?_eq_some_iff hnodup).2 (hname hf)
    rw [(Interner.find?_eq_some_iff hnodup).2 hsym] at hindex
    obtain rfl := Option.some.inj hindex
    obtain ⟨hlt, -⟩ := List.getElem?_eq_some_iff.1 hf
    rw [Builtin.names, List.length_map, if_pos hlt]

/-! ### The state between operations -/

/-- The frame of the builtins: each of the eight names is bound to the function at its place in the
table, and nothing else is bound. -/
structure HoldsBuiltins (scope : Scope) (names : Interner) : Prop where
  isGlobal : scope.isGlobal = true
  parent : scope.parent = none
  size : scope.size = 8
  bindings : ∀ (sym : Symbol) (v : Value), scope.bindings[sym]? = some v ↔
    ∃ (index : Nat) (f : Builtin), Builtin.table[index]? = some f ∧
      names.name? sym = some f.name ∧ v = .function index

/-- The frame of the definitions: every symbol and value in it is known. -/
structure HoldsDefinitions (scope : Scope) (names : Interner) : Prop where
  isGlobal : scope.isGlobal = false
  name : scope.name = utf8 "user"
  parent : scope.parent = some 0
  bindings : ∀ (sym : Symbol) (v : Value), scope.bindings[sym]? = some v →
    sym < names.size ∧ v.Known names

/-- The state of a session between operations. -/
structure Intact (s : Session) : Prop where
  size : s.stack.frames.size = 2
  top : s.stack.top = 1
  global : ∃ scope, s.stack.frames[0]? = some (some scope) ∧ HoldsBuiltins scope s.names
  user : ∃ scope, s.stack.frames[1]? = some (some scope) ∧ HoldsDefinitions scope s.names
  depth : s.depth = 0
  inverse : ∀ (name : Bytes) (sym : Symbol),
    s.names.find? name = some sym ↔ s.names.name? sym = some name
  interned : ∃ calls, Interner.empty.internAll calls = s.names
  /-- Whichever calls interned the names, the tables that these calls fill hold the names and, as
  long as symbols fit in words, undo each other. -/
  tables : ∀ calls, Interner.empty.internAll calls = s.names →
    (Interner.Tables.ofCalls calls).2.Holds s.names ∧
      (s.names.size ≤ 4294967296 → (Interner.Tables.ofCalls calls).2.Inverse)

theorem size_globalScope : globalScope.size = 8 := by decide +kernel

/-- After any finite sequence of operations, each of which may fail, a session is intact. -/
theorem intact_of_reachable (h : s.Reachable) : s.Intact := by
  have hs := h.proper
  obtain ⟨bindings, hframes⟩ := hs.frames
  refine ⟨by rw [hframes]; rfl, ?_, ⟨globalScope, by rw [hframes]; rfl, ?_⟩,
    ⟨userFrame bindings, by rw [hframes]; rfl, ?_⟩, hs.depth_eq, fun name sym => ?_,
    ⟨s.names.names, Interner.internAll_of_nodup hs.nodup⟩, fun calls hcalls => ?_⟩
  · rw [Stack.top, hs.height_eq]
    rfl
  · exact ⟨rfl, rfl, size_globalScope, getElem?_builtins_iff h.builtin_names hs.nodup⟩
  · refine ⟨rfl, rfl, rfl, fun sym v hv => hs.known userPlace (userFrame bindings) ?_ sym v hv⟩
    rw [hframes]
    rfl
  · exact Interner.find?_eq_some_iff hs.nodup
  · have hholds := (Interner.Tables.holds_ofCalls calls).2
    rw [hcalls] at hholds
    exact ⟨hholds, hholds.inverse hs.nodup⟩

/-- A builtin shadowed, a failure two frames deep, an unclosed text, bytes that are no snapshot. -/
theorem intact_after_failures :
    (((((start [] { limit := 20 }).session.evalLine (utf8 "(def! + [:k -])")).session.evalScript
      (utf8 "1 (let* [x 1] (let* [y x] (z y)))")).session.parse (utf8 "(")).2.load
        (utf8 "junk")).session.Intact :=
  intact_of_reachable (((((Reachable.start _ _).evalLine _).evalScript _).parse _).load _)

end SpanLisp.Session
