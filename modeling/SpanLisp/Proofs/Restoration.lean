import SpanLisp.Proofs.ByName
import SpanLisp.Proofs.ByteLexer
import SpanLisp.Proofs.CborCodec
import SpanLisp.Proofs.Identifiers

/-! A snapshot carries the definitions of one session into another. -/

namespace SpanLisp

/-! ### The frame of a snapshot -/

namespace Snapshot

/-- A snapshot is taken apart as it was put together; the checksum matters only by its length. -/
theorem read_frame {format : Format} (hformat : Format.ofCode format.code = format)
    {origin : Bytes} (horigin : origin.length = 16) (payload : Bytes) :
    read (frame format origin payload) =
      (decode format payload).map fun es => ⟨format, origin, es⟩ := by
  have hmark : mark = [0x43, 0x52, 0x54, 0x31] := by decide
  have hsum := Checksum.length_toBytes (Checksum.ofBytes payload)
  have hframe : frame format origin payload =
      [0x43, 0x52, 0x54, 0x31, format.code] ++ origin ++
        Checksum.toBytes (Checksum.ofBytes payload) ++ payload := by
    rw [frame, hmark]
    rfl
  have hlen : (frame format origin payload).length = 29 + payload.length := by
    rw [hframe]
    simp only [List.length_append, List.length_cons, List.length_nil, horigin, hsum]
  have htake : (frame format origin payload).take 4 = mark := by
    rw [hframe, hmark]
    rfl
  have hcode : (frame format origin payload)[4]? = some format.code := by
    rw [hframe]
    rfl
  have hdrop (n : Nat) (rest : Bytes) (more : Bytes) (hn : more.length = n) :
      (more ++ rest).drop n = rest := by
    subst hn
    exact List.drop_left
  have hpayload : (frame format origin payload).drop 29 = payload := by
    rw [hframe]
    apply hdrop
    simp only [List.length_append, List.length_cons, List.length_nil, horigin, hsum]
  have hstored : ((frame format origin payload).drop 21).take 8 =
      Checksum.toBytes (Checksum.ofBytes payload) := by
    rw [hframe, List.append_assoc, hdrop 21 _ _ (by simp [horigin]), ← hsum, List.take_left]
  have hid : ((frame format origin payload).drop 5).take 16 = origin := by
    rw [hframe, List.append_assoc, List.append_assoc, hdrop 5 _ _ rfl, ← horigin, List.take_left]
  rw [read, headerSize, if_neg (by rw [hlen, htake]; simp)]
  simp only [hcode, Option.getD_some, hformat, hpayload, hstored, hid,
    Checksum.ofLittleEndian_toBytes, ne_eq, not_true_eq_false, ↓reduceIte]

end Snapshot

namespace Session

/-! ### Definitions -/

/-- The frame with the definitions, empty if there is none. -/
def definitions (s : Session) : Scope := s.userScope.toOption.getD {}

/-- The value that a name is defined as. -/
def valueOf? (s : Session) (name : Bytes) : Option Value := s.definitions.valueOf? s.names name

theorem definitions_of_frames {s : Session} {bindings : Bindings}
    (h : s.stack.frames = #[some globalScope, some (userFrame bindings)]) :
    s.userScope = .ok (userFrame bindings) ∧ s.definitions = userFrame bindings := by
  have huser : s.userScope = .ok (userFrame bindings) := by
    rw [userScope, Stack.frameAt, h]
    rfl
  refine ⟨huser, ?_⟩
  rw [definitions, huser]
  rfl

variable {s : Session}

theorem Proper.userScope (hs : s.Proper) : s.userScope = .ok s.definitions := by
  obtain ⟨bindings, hframes⟩ := hs.frames
  obtain ⟨huser, hdef⟩ := definitions_of_frames hframes
  rw [huser, hdef]

theorem Proper.known_definition (hs : s.Proper) {sym : Symbol} {v : Value}
    (h : s.definitions.bindings[sym]? = some v) : KnownBinding s.names sym v := by
  obtain ⟨bindings, hframes⟩ := hs.frames
  rw [(definitions_of_frames hframes).2] at h
  refine hs.known userPlace (userFrame bindings) ?_ sym v h
  rw [hframes]
  rfl

theorem Proper.named (hs : s.Proper) : s.definitions.Named s.names :=
  fun _ _ h => (hs.known_definition h).1

theorem Proper.known_valueOf? (hs : s.Proper) {name : Bytes} {v : Value}
    (h : s.valueOf? name = some v) : v.Known s.names := by
  obtain ⟨sym, -, hv⟩ := Option.bind_eq_some_iff.1 h
  exact (hs.known_definition hv).2

/-- The definitions as a list: each name once, in order. -/
theorem Proper.exists_list (hs : s.Proper) :
    ∃ bs, s.definitions.byName s.names = .ok bs ∧ bs.Pairwise (fun a b => a.1 < b.1) ∧
      (∀ b, b ∈ bs ↔ s.valueOf? b.1 = some b.2) ∧ bs.length = s.definitions.size :=
  Scope.byName_of_named hs.named hs.nodup

/-- The entry of a snapshot for a definition. -/
def entryOf (names : Interner) (b : Bytes × Value) : Entry := ⟨b.1, Stored.spell names b.2⟩

theorem Proper.entries_eq (hs : s.Proper) {bs : List (Bytes × Value)}
    (hbs : s.definitions.byName s.names = .ok bs)
    (hmem : ∀ b, b ∈ bs ↔ s.valueOf? b.1 = some b.2) :
    s.entries = .ok (bs.map (entryOf s.names)) := by
  rw [entries, hs.userScope]
  simp only [hbs]
  refine Scope.collect_of_ok fun b hb => ?_
  rw [Stored.ofValue_of_known (hs.known_valueOf? ((hmem b).1 hb))]
  rfl

/-! ### Binding names -/

/-- Binding a symbol changes the definitions and nothing below them. -/
theorem Proper.bindAt_eq (hs : s.Proper) {sym : Symbol} {v : Value} (s' : Session)
    (h : Stack.bindAt userPlace sym v s.stack = (.ok (), s'.stack)) :
    s'.definitions = s.definitions.bind sym v ∧ s'.stack.frames[0]? = s.stack.frames[0]? := by
  obtain ⟨bindings, hframes⟩ := hs.frames
  have huser : s.stack.frames[userPlace]? = some (some (userFrame bindings)) := by
    rw [hframes]
    rfl
  rw [Stack.bindAt_of_frame huser] at h
  have hframes' : s'.stack.frames =
      #[some globalScope, some (userFrame (bindings.insert sym v))] := by
    rw [← (Prod.mk.inj h).2]
    simp only [hframes]
    rfl
  rw [(definitions_of_frames hframes').2, (definitions_of_frames hframes).2, hframes', hframes]
  exact ⟨rfl, rfl⟩

/-- One name bound: the others keep their values. -/
theorem Proper.valueOf?_bindAt (hs : s.Proper) {name : Bytes} {v : Value} (s' : Session)
    (hnames : s'.names = (s.names.intern name).2)
    (h : Stack.bindAt userPlace (s.names.intern name).1 v s.stack = (.ok (), s'.stack))
    (other : Bytes) :
    s'.valueOf? other = if other = name then some v else s.valueOf? other := by
  have hn := Interner.extends_intern s.names name
  rw [valueOf?, hnames, (hs.bindAt_eq s' h).1,
    Scope.valueOf?_bind (Interner.find?_intern s.names name), valueOf?,
    hs.named.valueOf?_extends hn (hn.nodup hs.nodup)]

/-- After binding several names, a name has the last value given to it, or its old one. -/
theorem Proper.valueOf?_bindAll :
    ∀ {bs : List (Bytes × Value)} {s s' : Session}, s.Proper → (∀ b ∈ bs, b.2.Known s.names) →
      s.bindAll bs = .ok s' →
      s.names.Extends s'.names ∧ s'.stack.frames[0]? = s.stack.frames[0]? ∧
        ∀ name, s'.valueOf? name = (bs.reverse.lookup name).or (s.valueOf? name)
  | [], s, s', _, _, h => by
    cases h
    exact ⟨.refl _, rfl, fun name => rfl⟩
  | (name, v) :: bs, s, s', hs, hknown, h => by
    have hn := Interner.extends_intern s.names name
    have hbinding : KnownBinding (s.names.intern name).2 (s.names.intern name).1 v :=
      ⟨Interner.lt_size_of_find? (Interner.find?_intern s.names name),
        (hknown _ List.mem_cons_self).mono hn⟩
    obtain ⟨stack, hbind, hproper⟩ := (hs.withNames hn).bindAt hbinding
    rw [Session.bindAll] at h
    simp only at hbind h
    rw [hbind] at h
    obtain ⟨hext, hglobal, hvalues⟩ := Proper.valueOf?_bindAll hproper
      (fun b hb => (hknown b (List.mem_cons_of_mem _ hb)).mono hn) h
    let s₁ : Session := { s with names := (s.names.intern name).2, stack := stack }
    refine ⟨hn.trans hext, hglobal.trans (hs.bindAt_eq s₁ hbind).2, fun other => ?_⟩
    rw [hvalues other, hs.valueOf?_bindAt s₁ rfl hbind, List.reverse_cons, List.lookup_append,
      Option.or_assoc]
    congr 1
    by_cases heq : other = name
    · simp [heq]
    · have hbeq : (other == name) = false := beq_eq_false_iff_ne.2 heq
      rw [if_neg heq, List.lookup_cons, hbeq]
      rfl

/-! ### Loading -/

/-- The definitions of one session, given symbols of another. -/
theorem revive_entryOf {t : Interner} :
    ∀ {bs : List (Bytes × Value)}, (∀ b ∈ bs, b.2.Known t) → ∀ u,
      ∃ ws u', revive u (bs.map (entryOf t)) = (.ok ws, u') ∧
        List.Forall₂ (fun b w => b.1 = w.1 ∧ b.2.Same t u' w.2) bs ws
  | [], _, u => ⟨[], u, rfl, .nil⟩
  | b :: bs, h, u => by
    obtain ⟨w, u₁, hw, hsame⟩ := Stored.toValue_spell (h b List.mem_cons_self) u
    obtain ⟨ws, u₂, hws, hall⟩ := revive_entryOf (fun c hc => h c (List.mem_cons_of_mem b hc)) u₁
    have hext := extends_revive (bs.map (entryOf t)) u₁
    rw [hws] at hext
    refine ⟨(b.1, w) :: ws, u₂, ?_, .cons ⟨rfl, hsame.mono (.refl t) hext⟩ hall⟩
    rw [List.map_cons, revive, entryOf, hw]
    simp only [hws]
    rfl

theorem load_of_read {t : Bytes} {shot : Snapshot} {bs : List (Bytes × Value)} {names : Interner}
    {s' : Session} (hread : Snapshot.read t = .ok shot)
    (hrevive : revive s.names shot.entries = (.ok bs, names))
    (hbind : { s with names := names }.bindAll bs = .ok s') :
    s.load t =
      ⟨.ok (Uuid.text shot.origin), s', [.loaded shot.entries.length (Uuid.text shot.origin)]⟩ := by
  rw [load, hread]
  simp only [hrevive, hbind]

/-- The third session has the definitions of the first on top of those of the second. -/
structure Restored (a b c : Session) : Prop where
  /-- The symbols of the second session keep their names. -/
  names : b.names.Extends c.names
  /-- Its global frame is as it was. -/
  global : c.stack.frames[0]? = b.stack.frames[0]?
  /-- What the first session defines has the same value, keywords compared by name. -/
  taken : ∀ name v, a.valueOf? name = some v →
    ∃ w, c.valueOf? name = some w ∧ v.Same a.names c.names w
  /-- Any other name is defined as it was. -/
  kept : ∀ name, a.valueOf? name = none → c.valueOf? name = b.valueOf? name

/-- What an exact list of bindings says of a name does not depend on its order. -/
theorem lookup_eq_of_mem_iff {bs : List (Bytes × Value)} {f : Bytes → Option Value}
    (h : ∀ b, b ∈ bs ↔ f b.1 = some b.2) (name : Bytes) : bs.lookup name = f name := by
  cases hlookup : bs.lookup name with
  | some v =>
    obtain ⟨l₁, l₂, hbs, -⟩ := List.lookup_eq_some_iff.1 hlookup
    have hmem : (name, v) ∈ bs := by
      rw [hbs]
      exact List.mem_append_right _ List.mem_cons_self
    exact ((h (name, v)).1 hmem).symm
  | none =>
    cases hf : f name with
    | none => rfl
    | some v =>
      have := List.lookup_eq_none_iff.1 hlookup (name, v) ((h (name, v)).2 hf)
      simp at this

theorem lookup_of_forall₂ {α β : Type} {R : α → β → Prop} {as : List (Bytes × α)}
    {bs : List (Bytes × β)} (h : List.Forall₂ (fun a b => a.1 = b.1 ∧ R a.2 b.2) as bs)
    (name : Bytes) : Option.Rel R (as.lookup name) (bs.lookup name) := by
  induction h with
  | nil => exact .none
  | @cons a b as bs hab _ ih =>
    obtain ⟨n, v⟩ := a
    obtain ⟨n', w⟩ := b
    obtain ⟨rfl, hR⟩ := hab
    rw [List.lookup_cons, List.lookup_cons]
    cases name == n with
    | true => exact .some hR
    | false => exact ih

/-- The size limits of the formats: fewer than 2^32 definitions, and fewer than 2^32 bytes or
elements in each name, string and vector. -/
structure Small (s : Session) : Prop where
  count_lt : s.definitions.size < 4294967296
  fits : ∀ name v, s.valueOf? name = some v → (entryOf s.names (name, v)).Fits

/-- Bytes that spell the definitions of a session restore them. -/
theorem load_restores {a b : Session} (ha : a.Proper) (hb : b.Proper) {t : Bytes}
    {shot : Snapshot} (hread : Snapshot.read t = .ok shot)
    (hentries : a.entries = .ok shot.entries) :
    (b.load t).result = .ok (Uuid.text shot.origin) ∧ Restored a b (b.load t).session := by
  obtain ⟨bs, hbyName, -, hmem, -⟩ := ha.exists_list
  rw [ha.entries_eq hbyName hmem] at hentries
  have hknown : ∀ c ∈ bs, c.2.Known a.names := fun c hc => ha.known_valueOf? ((hmem c).1 hc)
  obtain ⟨ws, names, hrevive, hsame⟩ := revive_entryOf hknown b.names
  rw [Except.ok.inj hentries] at hrevive
  have hn := extends_revive shot.entries b.names
  have hws := known_revive (congrArg Prod.fst hrevive)
  rw [hrevive] at hn hws
  obtain ⟨c, hbind, -⟩ := Proper.bindAll (hb.withNames hn) hws
  obtain ⟨hext, hglobal, hvalues⟩ := Proper.valueOf?_bindAll (hb.withNames hn) hws hbind
  rw [load_of_read hread hrevive hbind]
  have hold (name : Bytes) : { b with names := names }.valueOf? name = b.valueOf? name :=
    hb.named.valueOf?_extends hn (hn.nodup hb.nodup) name
  have hrel (name : Bytes) := lookup_of_forall₂ (List.forall₂_reverse_iff.2 hsame) name
  have hlookup (name : Bytes) : bs.reverse.lookup name = a.valueOf? name :=
    lookup_eq_of_mem_iff (fun c => List.mem_reverse.trans (hmem c)) name
  refine ⟨rfl, hn.trans hext, hglobal, fun name v hv => ?_, fun name hnone => ?_⟩
  · have hname := hrel name
    rw [hlookup, hv] at hname
    obtain ⟨w, hw, hvw⟩ := exists_of_rel_left hname
    refine ⟨w, ?_, hvw.mono (.refl _) hext⟩
    rw [hvalues, hw, Option.some_or]
  · have hname := hrel name
    rw [hlookup, hnone] at hname
    rw [hvalues, hold, eq_none_of_rel hname, Option.none_or]

/-! ### Saving and loading -/

variable {a b : Session} {id : Bytes}

theorem save_of_encode {format : Snapshot.Format} {es : List Entry} {payload : Bytes}
    (hid : Uuid.parse a.id = .ok id) (hentries : a.entries = .ok es)
    (hencode : Snapshot.encode format es = .ok payload) :
    (a.save format).result = .ok (Snapshot.frame format id payload) := by
  rw [save, hentries]
  simp only [hencode, hid]

/-- The entries of a small session have a written form. -/
theorem Proper.entries_fit (ha : a.Proper) (hsmall : a.Small) :
    ∃ es, a.entries = .ok es ∧ es.length < 4294967296 ∧ (∀ e ∈ es, e.Fits) ∧
      es.length = a.definitions.size ∧
      ∀ e, e ∈ es ↔ ∃ name v, a.valueOf? name = some v ∧ entryOf a.names (name, v) = e := by
  obtain ⟨bs, hbyName, -, hmem, hlen⟩ := ha.exists_list
  have hiff (e : Entry) : e ∈ bs.map (entryOf a.names) ↔
      ∃ name v, a.valueOf? name = some v ∧ entryOf a.names (name, v) = e := by
    rw [List.mem_map]
    constructor
    · rintro ⟨c, hc, rfl⟩
      exact ⟨c.1, c.2, (hmem c).1 hc, rfl⟩
    · rintro ⟨name, v, hv, rfl⟩
      exact ⟨(name, v), (hmem _).2 hv, rfl⟩
  refine ⟨_, ha.entries_eq hbyName hmem, ?_, ?_, ?_, hiff⟩
  · rw [List.length_map, hlen]
    exact hsmall.count_lt
  · intro e he
    obtain ⟨name, v, hv, rfl⟩ := (hiff e).1 he
    exact hsmall.fits name v hv
  · rw [List.length_map, hlen]

/-- A MessagePack snapshot of a small session is read back whole. -/
theorem Proper.read_messagePack (ha : a.Proper) (hid : Uuid.parse a.id = .ok id)
    (hsmall : a.Small) :
    ∃ t es, (a.save .messagePack).result = .ok t ∧ a.entries = .ok es ∧
      Snapshot.read t = .ok ⟨.messagePack, id, es⟩ := by
  obtain ⟨es, hentries, hlen, hfits, -⟩ := ha.entries_fit hsmall
  refine ⟨_, es, save_of_encode hid hentries rfl, hentries, ?_⟩
  rw [Snapshot.read_frame rfl (Uuid.length_of_parse hid), Snapshot.decode,
    Pack.readEntries_writeEntries hlen hfits]
  rfl

/-! ### Sessions with one definition -/

theorem evalLine_start {id line : Bytes} {options : EvalOptions} {e : Expr} {names : Interner}
    (h : parseLine options.limit line ⟨Builtin.names⟩ = (.ok e, names)) :
    ((start id options).session.evalLine line).session =
      { id := id
        names := names
        stack := (e.eval options line (ofId id options).machine).2.stack
        depth := (e.eval options line (ofId id options).machine).2.depth
        options := options } := by
  have hnames : (start id options).session.names = ⟨Builtin.names⟩ :=
    congrArg Interner.mk (names_ofId id options)
  have hparse : (start id options).session.parse line =
      (.ok e, { (start id options).session with names := names }) := by
    have hoptions : (start id options).session.options = options := rfl
    rw [Session.parse, hnames, hoptions, h]
    rfl
  rw [evalLine, hparse]
  rfl

theorem valueOf?_single {sym : Symbol} {v : Value} {name : Bytes}
    (hframes : s.stack.frames = #[some globalScope, some (userFrame ((∅ : Bindings).insert sym v))])
    (hname : s.names.find? name = some sym) {other : Bytes} {w : Value} :
    s.valueOf? other = some w ↔ other = name ∧ w = v := by
  have hempty (other : Bytes) : (userFrame ∅).valueOf? s.names other = none := by
    rw [Scope.valueOf?]
    cases s.names.find? other <;> simp [userFrame]
  rw [valueOf?, (definitions_of_frames hframes).2]
  change ((userFrame ∅).bind sym v).valueOf? s.names other = some w ↔ _
  rw [Scope.valueOf?_bind hname, hempty]
  simp only [Option.ite_none_right_eq_some, Option.some.injEq, eq_comm]

theorem small_single {sym : Symbol} {v : Value} {name : Bytes}
    (hframes : s.stack.frames = #[some globalScope, some (userFrame ((∅ : Bindings).insert sym v))])
    (hname : s.names.find? name = some sym) (hfits : (entryOf s.names (name, v)).Fits) :
    s.Small := by
  refine ⟨?_, fun other w h => ?_⟩
  · rw [(definitions_of_frames hframes).2]
    simp [userFrame, Scope.size, Std.ExtTreeMap.size_insert]
  · obtain ⟨rfl, rfl⟩ := (valueOf?_single hframes hname).1 h
    exact hfits

/-! ### MessagePack -/

/-- For sessions reached by any operations: saving as MessagePack succeeds and changes nothing, and
loading the bytes into any session succeeds, gives the identifier of the saved session in its
canonical form and restores the definitions. -/
theorem messagePack_restores (ha : a.Reachable) (hb : b.Reachable)
    (hid : Uuid.parse a.id = .ok id) (hsmall : a.Small) :
    ∃ t, (a.save .messagePack).result = .ok t ∧ (a.save .messagePack).session = a ∧
      (b.load t).result = .ok (Uuid.text id) ∧ Uuid.parse (Uuid.text id) = .ok id ∧
      Restored a b (b.load t).session := by
  obtain ⟨t, es, hsave, hentries, hread⟩ := ha.proper.read_messagePack hid hsmall
  obtain ⟨hresult, hrestored⟩ := load_restores ha.proper hb.proper hread hentries
  exact ⟨t, hsave, session_save a _, hresult, Uuid.parse_text (Uuid.length_of_parse hid), hrestored⟩

/-- A vector with a keyword, over a session with other symbols and a definition of the same name;
the identifier is written in capitals. -/
theorem messagePack_restores_vector :
    let a := ((start (utf8 "00112233-4455-4677-8899-AABBCCDDEEFF") {}).session.evalLine
      (utf8 "(def! v [:k [7]])")).session
    let b := ((start [] {}).session.evalLine (utf8 "(def! v :other)")).session
    let id : Bytes := [0x00, 0x11, 0x22, 0x33, 0x44, 0x55, 0x46, 0x77, 0x88, 0x99, 0xaa, 0xbb, 0xcc,
      0xdd, 0xee, 0xff]
    Uuid.parse a.id = .ok id ∧ a.Small ∧
      ∃ t, (a.save .messagePack).result = .ok t ∧ (b.load t).result = .ok (Uuid.text id) ∧
        Restored a b (b.load t).session := by
  have hparse : parseLine 10000 (utf8 "(def! v [:k [7]])") ⟨Builtin.names⟩ =
      (.ok (.list ⟨0, 17⟩ [.operator ⟨1, 5⟩ .define, .symbol ⟨6, 7⟩ 9,
          .vector ⟨8, 16⟩ [.keyword ⟨9, 11⟩ 10, .vector ⟨12, 15⟩ [.integer ⟨13, 14⟩ 7]]]),
        ⟨Builtin.names ++ [utf8 "def!", utf8 "v", utf8 "k"]⟩) := by
    unfold parseLine Parser.parse
    rw [ByteLexer.tokens_eq_scan]
    rfl
  intro a b id
  have ha : a = _ := evalLine_start hparse
  have hid : Uuid.parse a.id = .ok id := by
    rw [ha]
    decide +kernel
  have hframes : a.stack.frames = #[some globalScope, some (userFrame
      ((∅ : Bindings).insert 9 (.vector [.keyword 10, .vector [.integer 7]])))] := by
    rw [ha]
    rfl
  have hname : a.names.find? (utf8 "v") = some 9 := by
    rw [ha]
    decide +kernel
  have hsmall : a.Small := by
    refine small_single hframes hname ⟨by decide +kernel, ?_⟩
    rw [ha]
    refine ⟨by decide, ?_, ⟨by decide, trivial, trivial⟩, trivial⟩
    change (utf8 "k").length < 4294967296
    decide +kernel
  have hreachable : a.Reachable := (Reachable.start _ _).evalLine _
  have hreachable' : b.Reachable := (Reachable.start _ _).evalLine _
  obtain ⟨t, hsave, -, hload, -, hrestored⟩ :=
    messagePack_restores hreachable hreachable' hid hsmall
  exact ⟨hid, hsmall, t, hsave, hload, hrestored⟩

/-! ### CBOR -/

/-- Are all definitions within the limits of the CBOR reader? -/
def Portable (s : Session) : Prop :=
  s.definitions.size ≤ Cbor.maxElements ∧
    ∀ name v, s.valueOf? name = some v → (entryOf s.names (name, v)).isPortable = true

/-- What the bytes of a CBOR snapshot spell: the definitions, or nothing beyond the limits. -/
theorem Proper.read_cbor (ha : a.Proper) (hid : Uuid.parse a.id = .ok id) (hsmall : a.Small) :
    ∃ t es, (a.save .cbor).result = .ok t ∧ a.entries = .ok es ∧
      (a.Portable → Snapshot.read t = .ok ⟨.cbor, id, es⟩) ∧
      (¬ a.Portable → Snapshot.read t = .error (.notCbor .invalid)) := by
  obtain ⟨es, hentries, hlen, hfits, hsize, hmem⟩ := ha.entries_fit hsmall
  have hformat : Snapshot.Format.ofCode Snapshot.Format.cbor.code = .cbor := rfl
  have hread := Snapshot.read_frame hformat (Uuid.length_of_parse hid) (Cbor.writeEntries es)
  rw [Snapshot.decode, Cbor.readEntries_writeEntries hlen hfits] at hread
  have hportable : a.Portable ↔
      es.length ≤ Cbor.maxElements ∧ es.all Entry.isPortable = true := by
    rw [Portable, hsize, List.all_eq_true]
    refine and_congr_right fun _ => ⟨fun h e he => ?_, fun h name v hv => ?_⟩
    · obtain ⟨name, v, hv, rfl⟩ := (hmem e).1 he
      exact h name v hv
    · exact h _ ((hmem _).2 ⟨name, v, hv, rfl⟩)
  refine ⟨_, es, save_of_encode hid hentries rfl, hentries, fun h => ?_, fun h => ?_⟩
  · rw [hread, if_pos (hportable.1 h)]
    rfl
  · rw [hread, if_neg (mt hportable.2 h)]
    rfl

theorem load_congr {t u : Bytes} {shot shot' : Snapshot} (ht : Snapshot.read t = .ok shot)
    (hu : Snapshot.read u = .ok shot') (horigin : shot.origin = shot'.origin)
    (hentries : shot.entries = shot'.entries) : b.load t = b.load u := by
  rw [load, load, ht, hu]
  simp only [horigin, hentries]

theorem load_of_read_error {t : Bytes} {e : Snapshot.Failure} (h : Snapshot.read t = .error e) :
    b.load t = ⟨.error e, b, []⟩ := by
  rw [load, h]

/-- Within the limits of the CBOR reader, both formats do the same to any session.  Beyond them,
MessagePack still restores the definitions, while the CBOR bytes that were saved are refused. -/
theorem cbor_agrees_iff_portable (ha : a.Reachable) (hb : b.Reachable)
    (hid : Uuid.parse a.id = .ok id) (hsmall : a.Small) :
    ∃ t u, (a.save .messagePack).result = .ok t ∧ (a.save .cbor).result = .ok u ∧
      (b.load t).result = .ok (Uuid.text id) ∧
      (a.Portable → b.load u = b.load t) ∧
      (¬ a.Portable →
        (b.load u).result = .error (.notCbor .invalid) ∧ (b.load u).session = b) := by
  obtain ⟨t, es, hsave, hentries, hread⟩ := ha.proper.read_messagePack hid hsmall
  obtain ⟨u, es', hsave', hentries', hwithin, hbeyond⟩ := ha.proper.read_cbor hid hsmall
  obtain rfl : es = es' := Except.ok.inj (hentries.symm.trans hentries')
  refine ⟨t, u, hsave, hsave', (load_restores ha.proper hb.proper hread hentries).1,
    fun h => load_congr (hwithin h) hread rfl rfl, fun h => ?_⟩
  rw [load_of_read_error (hbeyond h)]
  exact ⟨rfl, rfl⟩

/-- A string that is UTF-8, where both formats agree. -/
theorem cbor_agrees_on_text :
    let a := ((start (utf8 "00112233445546778899aabbccddeeff") {}).session.evalLine
      (utf8 "(def! good \"ok\")")).session
    let b := (start [] {}).session
    a.Small ∧ a.Portable ∧
      ∃ t u, (a.save .messagePack).result = .ok t ∧ (a.save .cbor).result = .ok u ∧
        b.load u = b.load t := by
  have hparse : parseLine 10000 (utf8 "(def! good \"ok\")") ⟨Builtin.names⟩ =
      (.ok (.list ⟨0, 16⟩ [.operator ⟨1, 5⟩ .define, .symbol ⟨6, 10⟩ 9, .string ⟨11, 15⟩]),
        ⟨Builtin.names ++ [utf8 "def!", utf8 "good"]⟩) := by
    unfold parseLine Parser.parse
    rw [ByteLexer.tokens_eq_scan]
    rfl
  intro a b
  have ha : a = _ := evalLine_start hparse
  have hid : Uuid.parse a.id = .ok [0x00, 0x11, 0x22, 0x33, 0x44, 0x55, 0x46, 0x77, 0x88, 0x99,
      0xaa, 0xbb, 0xcc, 0xdd, 0xee, 0xff] := by
    rw [ha]
    decide +kernel
  have hframes : a.stack.frames = #[some globalScope, some (userFrame
      ((∅ : Bindings).insert 9 (.string (utf8 "ok"))))] := by
    rw [ha]
    rfl
  have hname : a.names.find? (utf8 "good") = some 9 := by
    rw [ha]
    decide +kernel
  have hlen : (utf8 "ok").length < 4294967296 := by decide +kernel
  have hsmall : a.Small := small_single hframes hname ⟨by decide +kernel, hlen⟩
  have hportable : a.Portable := by
    refine ⟨?_, fun name v h => ?_⟩
    · rw [(definitions_of_frames hframes).2]
      decide +kernel
    · obtain ⟨rfl, rfl⟩ := (valueOf?_single hframes hname).1 h
      decide +kernel
  have hreachable : a.Reachable := (Reachable.start _ _).evalLine _
  obtain ⟨t, u, hsave, hsave', -, hagree, -⟩ :=
    cbor_agrees_iff_portable hreachable (Reachable.start [] {}) hid hsmall
  exact ⟨hsmall, hportable, t, u, hsave, hsave', hagree hportable⟩

/-- A string of the one byte 0xff: MessagePack restores it, and CBOR refuses the bytes it wrote. -/
theorem cbor_refuses_stray_byte :
    let a := ((start (utf8 "00112233445546778899aabbccddeeff") {}).session.evalLine
      (utf8 "(def! bad \"" ++ [0xff] ++ utf8 "\")")).session
    let b := (start [] {}).session
    ∃ t u, (a.save .messagePack).result = .ok t ∧ (a.save .cbor).result = .ok u ∧
      (b.load t).result = .ok (utf8 "00112233-4455-4677-8899-aabbccddeeff") ∧
      (b.load t).session.valueOf? (utf8 "bad") = some (.string [0xff]) ∧
      (b.load u).result = .error (.notCbor .invalid) := by
  have hparse : parseLine 10000 (utf8 "(def! bad \"" ++ [0xff] ++ utf8 "\")") ⟨Builtin.names⟩ =
      (.ok (.list ⟨0, 14⟩ [.operator ⟨1, 5⟩ .define, .symbol ⟨6, 9⟩ 9, .string ⟨10, 13⟩]),
        ⟨Builtin.names ++ [utf8 "def!", utf8 "bad"]⟩) := by
    unfold parseLine Parser.parse
    rw [ByteLexer.tokens_eq_scan]
    rfl
  intro a b
  have ha : a = _ := evalLine_start hparse
  have hid : Uuid.parse a.id = .ok [0x00, 0x11, 0x22, 0x33, 0x44, 0x55, 0x46, 0x77, 0x88, 0x99,
      0xaa, 0xbb, 0xcc, 0xdd, 0xee, 0xff] := by
    rw [ha]
    decide +kernel
  have hframes : a.stack.frames = #[some globalScope, some (userFrame
      ((∅ : Bindings).insert 9 (.string [0xff])))] := by
    rw [ha]
    rfl
  have hname : a.names.find? (utf8 "bad") = some 9 := by
    rw [ha]
    decide +kernel
  have hvalue : a.valueOf? (utf8 "bad") = some (.string [0xff]) :=
    (valueOf?_single hframes hname).2 ⟨rfl, rfl⟩
  have hlen : [(0xff : UInt8)].length < 4294967296 := by decide
  have hsmall : a.Small := small_single hframes hname ⟨by decide +kernel, hlen⟩
  have hbeyond : ¬ a.Portable := by
    intro h
    have := h.2 _ _ hvalue
    revert this
    decide +kernel
  have hproper : a.Proper := ((Reachable.start _ _).evalLine _).proper
  obtain ⟨t, es, hsave, hentries, hread⟩ := hproper.read_messagePack hid hsmall
  obtain ⟨u, _, hsave', -, -, hrefused⟩ := hproper.read_cbor hid hsmall
  obtain ⟨hresult, hrestored⟩ := load_restores hproper (Reachable.start [] {}).proper hread hentries
  obtain ⟨w, hw, hsame⟩ := hrestored.taken _ _ hvalue
  have horigin : Uuid.text [0x00, 0x11, 0x22, 0x33, 0x44, 0x55, 0x46, 0x77, 0x88, 0x99, 0xaa, 0xbb,
      0xcc, 0xdd, 0xee, 0xff] = utf8 "00112233-4455-4677-8899-aabbccddeeff" := by decide +kernel
  refine ⟨t, u, hsave, hsave', ?_, ?_, ?_⟩
  · rw [hresult, horigin]
  · cases w with
    | string s =>
      obtain rfl : [0xff] = s := hsame
      exact hw
    | _ => cases hsame
  · rw [load_of_read_error (hrefused hbeyond)]

end Session

end SpanLisp
