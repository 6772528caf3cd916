import SpanLisp.Proofs.TwoSessions

/-!
# Canonical snapshots

The entries of a session are its definitions spelled out and put in the order of their names.  No
two definitions have the same name, so any list of them in that order is the list of the entries,
whatever order they are enumerated in before they are sorted (`Proper.entries_of_sorted`).  The
entries depend on the names and values alone (`Proper.entries_congr`), and so does the payload of a
snapshot.  A session that has loaded a snapshot and nothing else therefore writes it again.
-/

namespace SpanLisp.Session

variable {a b c s : Session}

/-! ### The order of the entries -/

theorem Proper.exists_entries (hs : s.Proper) :
    ∃ es, s.entries = .ok es ∧ es.Pairwise fun e e' => e.name < e'.name := by
  obtain ⟨bs, hbyName, hsorted, hmem, -⟩ := hs.exists_list
  exact ⟨_, hs.entries_eq hbyName hmem, List.pairwise_map.2 hsorted⟩

/-- However the definitions are enumerated and sorted by name, they are the entries. -/
theorem Proper.entries_of_sorted (hs : s.Proper) {order : List (Bytes × Value)}
    (hperm : order.Perm (s.definitions.spelled s.names))
    (hsorted : order.Pairwise fun x y => x.1 ≤ y.1) :
    s.entries = .ok (order.map (entryOf s.names)) := by
  obtain ⟨bs, hbyName, hbs, hmem, -⟩ := hs.exists_list
  have hspelled (x : Bytes × Value) : x ∈ order ↔ s.valueOf? x.1 = some x.2 :=
    hperm.mem_iff.trans (Scope.mem_spelled_iff hs.named hs.nodup)
  have hnodup : order.Nodup := by
    refine hperm.nodup_iff.2 ((Scope.pairwise_spelled hs.named hs.nodup).imp fun hne heq => ?_)
    exact hne (congrArg Prod.fst heq)
  have hnodup' : bs.Nodup := by
    refine List.Pairwise.imp (fun {x y} hlt heq => ?_) hbs
    rw [heq] at hlt
    exact List.lt_irrefl y.1 hlt
  have hbs' : bs.Pairwise fun x y => x.1 ≤ y.1 := hbs.imp List.le_of_lt
  have heq : order = bs := by
    refine List.Perm.eq_of_pairwise (fun x y hx hy hxy hyx => ?_) hsorted hbs'
      ((List.perm_ext_iff_of_nodup hnodup hnodup').2 fun x => (hspelled x).trans (hmem x).symm)
    have hname : x.1 = y.1 := List.le_antisymm hxy hyx
    have hvalue := (hspelled x).1 hx
    rw [hname, (hmem y).1 hy] at hvalue
    exact Prod.ext hname (Option.some.inj hvalue).symm
  rw [heq]
  exact hs.entries_eq hbyName hmem

/-! ### Saving -/

/-- The session is saved as the entries.  They are its definitions in the order of the names,
whatever order these are enumerated in, and saving as MessagePack writes them behind the identifier
and their checksum, unless the identifier is no UUID. -/
structure SavedAs (s : Session) (es : List Entry) : Prop where
  order (order : List (Bytes × Value)) (hperm : order.Perm (s.definitions.spelled s.names))
    (hsorted : order.Pairwise fun x y => x.1 ≤ y.1) : order.map (entryOf s.names) = es
  save_eq : (s.save .messagePack).result =
    ((Uuid.parse s.id).mapError Snapshot.Failure.badId).map fun id =>
      Snapshot.frame .messagePack id (Pack.writeEntries es)

theorem Proper.savedAs (hs : s.Proper) {es : List Entry} (h : s.entries = .ok es) :
    s.SavedAs es where
  order order hperm hsorted := Except.ok.inj ((hs.entries_of_sorted hperm hsorted).symm.trans h)
  save_eq := by
    rw [save, h]
    simp only [Snapshot.encode]
    cases Uuid.parse s.id with
    | error e => rfl
    | ok id => rfl

/-! ### Loading and saving again -/

theorem id_load (s : Session) (t : Bytes) : (s.load t).session.id = s.id := by
  rw [load]
  split
  · rfl
  · split
    · rfl
    · split
      · rfl
      · rename_i hbind
        exact (kept_bindAll hbind).1

/-- A session without definitions takes over those it loads. -/
theorem Restored.values (h : Restored a b c) (hb : ∀ name, b.valueOf? name = none) (name : Bytes) :
    Option.Rel (Value.Same a.names c.names) (a.valueOf? name) (c.valueOf? name) := by
  cases hv : a.valueOf? name with
  | some v =>
    obtain ⟨w, hw, hsame⟩ := h.taken name v hv
    rw [hw]
    exact .some hsame
  | none =>
    rw [h.kept name hv, hb name]
    exact .none

/-- Sessions that define the same names as the same values, in whatever order and under whatever
numbers, are saved as the same entries, in strict order of the names.  And where all lengths fit
their words of 32 bits, a session without definitions that has the same identifier loads the
MessagePack snapshot of the first and writes it again, byte for byte. -/
theorem snapshots_canonical (ha : a.Reachable) (hb : b.Reachable)
    (hvalues : ∀ name,
      Option.Rel (Value.Same a.names b.names) (a.valueOf? name) (b.valueOf? name)) :
    (∃ es : List Entry, es.Pairwise (fun e e' => e.name < e'.name) ∧ a.SavedAs es ∧ b.SavedAs es) ∧
    ∀ id, Uuid.parse a.id = .ok id → a.Small → ∀ c : Session, c.Reachable →
      Uuid.parse c.id = .ok id → (∀ name, c.valueOf? name = none) →
      ∃ t, (a.save .messagePack).result = .ok t ∧ (c.load t).result = .ok (Uuid.text id) ∧
        ((c.load t).session.save .messagePack).result = .ok t := by
  obtain ⟨es, hentries, hsorted⟩ := ha.proper.exists_entries
  have hentries' := (ha.proper.entries_congr hb.proper hvalues).symm.trans hentries
  refine ⟨⟨es, hsorted, ha.proper.savedAs hentries, hb.proper.savedAs hentries'⟩,
    fun id hid hsmall c hc hcid hfresh => ?_⟩
  obtain ⟨t, es', hsave, hes', hread⟩ := ha.proper.read_messagePack hid hsmall
  obtain ⟨hload, hrestored⟩ := load_restores ha.proper hc.proper hread hes'
  have hloaded : (c.load t).session.entries = .ok es' :=
    (ha.proper.entries_congr (hc.load t).proper (hrestored.values hfresh)).symm.trans hes'
  refine ⟨t, hsave, hload, ?_⟩
  rw [((hc.load t).proper.savedAs hloaded).save_eq, id_load, hcid, ← hsave,
    (ha.proper.savedAs hes').save_eq, hid]

/-! ### Sessions with two definitions -/

theorem evalScript_start {id text : Bytes} {options : EvalOptions} {es : List Expr}
    {names : Interner} (h : parseAll options.limit text ⟨Builtin.names⟩ = (.ok es, names)) :
    ((start id options).session.evalScript text).session =
      { id := id
        names := names
        stack := (evalEach options text .nil es (ofId id options).machine).2.stack
        depth := (evalEach options text .nil es (ofId id options).machine).2.depth
        options := options } := by
  have hnames : (start id options).session.names = ⟨Builtin.names⟩ :=
    congrArg Interner.mk (names_ofId id options)
  have hparse : (start id options).session.parseScript text =
      (.ok es, { (start id options).session with names := names }) := by
    have hoptions : (start id options).session.options = options := rfl
    rw [parseScript, hnames, hoptions, h]
    rfl
  rw [evalScript, hparse]
  rfl

/-- Two names defined in either order, one of them twice; their symbols and the keyword have other
numbers in the second session. -/
theorem snapshots_canonical_redefined :
    let a := ((start (utf8 "00112233-4455-4677-8899-aabbccddeeff") {}).session.evalScript
      (utf8 "(def! x :k) (def! y 1)")).session
    let b := ((start (utf8 "ffeeddccbbaa99887766554433221100") {}).session.evalScript
      (utf8 "(def! y 2) (def! x :k) (def! y 1)")).session
    let id : Bytes := [0x00, 0x11, 0x22, 0x33, 0x44, 0x55, 0x46, 0x77, 0x88, 0x99, 0xaa, 0xbb, 0xcc,
      0xdd, 0xee, 0xff]
    let c := (start (utf8 "00112233-4455-4677-8899-aabbccddeeff") {}).session
    (∀ name, Option.Rel (Value.Same a.names b.names) (a.valueOf? name) (b.valueOf? name)) ∧
      a.valueOf? (utf8 "y") = some (.integer 1) ∧ Uuid.parse a.id = .ok id ∧ a.Small ∧
      (∃ es : List Entry, es.Pairwise (fun e e' => e.name < e'.name) ∧ a.SavedAs es ∧
        b.SavedAs es) ∧
      ∃ t, (a.save .messagePack).result = .ok t ∧
        ((c.load t).session.save .messagePack).result = .ok t := by
  have hparse : parseAll 10000 (utf8 "(def! x :k) (def! y 1)") ⟨Builtin.names⟩ =
      (.ok [.list ⟨0, 11⟩ [.operator ⟨1, 5⟩ .define, .symbol ⟨6, 7⟩ 9, .keyword ⟨8, 10⟩ 10],
          .list ⟨12, 22⟩ [.operator ⟨13, 17⟩ .define, .symbol ⟨18, 19⟩ 11, .integer ⟨20, 21⟩ 1]],
        ⟨Builtin.names ++ [utf8 "def!", utf8 "x", utf8 "k", utf8 "y"]⟩) := by
    unfold parseAll Parser.parse
    rw [ByteLexer.tokens_eq_scan]
    rfl
  have hparse' : parseAll 10000 (utf8 "(def! y 2) (def! x :k) (def! y 1)") ⟨Builtin.names⟩ =
      (.ok [.list ⟨0, 10⟩ [.operator ⟨1, 5⟩ .define, .symbol ⟨6, 7⟩ 9, .integer ⟨8, 9⟩ 2],
          .list ⟨11, 22⟩ [.operator ⟨12, 16⟩ .define, .symbol ⟨17, 18⟩ 10, .keyword ⟨19, 21⟩ 11],
          .list ⟨23, 33⟩ [.operator ⟨24, 28⟩ .define, .symbol ⟨29, 30⟩ 9, .integer ⟨31, 32⟩ 1]],
        ⟨Builtin.names ++ [utf8 "def!", utf8 "y", utf8 "x", utf8 "k"]⟩) := by
    unfold parseAll Parser.parse
    rw [ByteLexer.tokens_eq_scan]
    rfl
  intro a b id c
  have ha : a = _ := evalScript_start hparse
  have hb : b = _ := evalScript_start hparse'
  have hframes : a.stack.frames = #[some globalScope, some (userFrame
      (((∅ : Bindings).insert 9 (.keyword 10)).insert 11 (.integer 1)))] := by
    rw [ha]
    rfl
  have hframes' : b.stack.frames = #[some globalScope, some (userFrame
      ((((∅ : Bindings).insert 9 (.integer 2)).insert 10 (.keyword 11)).insert 9
        (.integer 1)))] := by
    rw [hb]
    rfl
  have hx : a.names.find? (utf8 "x") = some 9 := by
    rw [ha]
    decide +kernel
  have hy : a.names.find? (utf8 "y") = some 11 := by
    rw [ha]
    decide +kernel
  have hx' : b.names.find? (utf8 "x") = some 10 := by
    rw [hb]
    decide +kernel
  have hy' : b.names.find? (utf8 "y") = some 9 := by
    rw [hb]
    decide +kernel
  have hempty (names : Interner) (name : Bytes) : (userFrame ∅).valueOf? names name = none :=
    Scope.valueOf?_named userName name
  have hvalue (name : Bytes) : a.valueOf? name = if name = utf8 "y" then some (.integer 1) else
      if name = utf8 "x" then some (.keyword 10) else none := by
    rw [valueOf?, (definitions_of_frames hframes).2]
    change (((userFrame ∅).bind 9 (.keyword 10)).bind 11 (.integer 1)).valueOf? _ name = _
    rw [Scope.valueOf?_bind hy, Scope.valueOf?_bind hx, hempty]
  have hvalue' (name : Bytes) : b.valueOf? name = if name = utf8 "y" then some (.integer 1) else
      if name = utf8 "x" then some (.keyword 11) else
        if name = utf8 "y" then some (.integer 2) else none := by
    rw [valueOf?, (definitions_of_frames hframes').2]
    change ((((userFrame ∅).bind 9 (.integer 2)).bind 10 (.keyword 11)).bind 9
      (.integer 1)).valueOf? _ name = _
    rw [Scope.valueOf?_bind hy', Scope.valueOf?_bind hx', Scope.valueOf?_bind hy', hempty]
  have hkeyword : (Value.keyword 10).Same a.names b.names (.keyword 11) := by
    refine ⟨utf8 "k", ?_, ?_⟩
    · rw [ha]
      rfl
    · rw [hb]
      rfl
  have hvalues (name : Bytes) :
      Option.Rel (Value.Same a.names b.names) (a.valueOf? name) (b.valueOf? name) := by
    rw [hvalue, hvalue']
    by_cases hyname : name = utf8 "y"
    · rw [if_pos hyname, if_pos hyname]
      exact .some rfl
    rw [if_neg hyname, if_neg hyname, if_neg hyname]
    by_cases hxname : name = utf8 "x"
    · rw [if_pos hxname, if_pos hxname]
      exact .some hkeyword
    · rw [if_neg hxname, if_neg hxname]
      exact .none
  have hsmall : a.Small := by
    refine ⟨?_, fun name v h => ?_⟩
    · rw [(definitions_of_frames hframes).2]
      decide +kernel
    · rw [hvalue] at h
      split at h
      · rename_i hname
        cases h
        exact ⟨by rw [hname]; decide +kernel, trivial⟩
      · split at h
        · rename_i hname
          cases h
          refine ⟨by rw [hname]; decide +kernel, ?_⟩
          rw [ha]
          change (utf8 "k").length < 4294967296
          decide +kernel
        · cases h
  have hid : Uuid.parse a.id = .ok id := by
    rw [ha]
    decide +kernel
  have hfresh (name : Bytes) : c.valueOf? name = none := valueOf?_of_empty rfl name
  obtain ⟨hsaved, hreload⟩ := snapshots_canonical ((Reachable.start _ _).evalScript _)
    ((Reachable.start _ _).evalScript _) hvalues
  obtain ⟨t, hsave, -, hagain⟩ := hreload id hid hsmall c (.start _ _) (by decide +kernel) hfresh
  exact ⟨hvalues, by rw [hvalue, if_pos rfl], hid, hsmall, hsaved, t, hsave, hagain⟩

end SpanLisp.Session
