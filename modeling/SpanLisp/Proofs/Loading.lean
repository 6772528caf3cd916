import SpanLisp.Proofs.Restoration

/-! Loading binds everything that a snapshot lists, or nothing. -/

namespace SpanLisp

/-- The function found under a name has that name. -/
theorem Builtin.name_of_find? {name : Bytes} {index : Nat} (h : find? name = some index) :
    ((get? index).map Builtin.name).getD [] = name := by
  have hname : (Interner.mk names).name? index = some name := Interner.name?_of_find? h
  rw [Interner.name?, names, List.getElem?_map] at hname
  have hget : get? index = table[index]? := by
    rw [get?, if_neg (by omega), Int.toNat_natCast]
  rw [hget, hname]
  rfl

namespace Stored

/-! ### Stored values that mean something -/

mutual

/-- Every kind inside the stored value is known, and every function is one of the table. -/
def Meaningful : Stored → Prop
  | function name => name ∈ Builtin.names
  | vector elems => MeaningfulAll elems
  | unlisted _ => False
  | nil | bool _ | integer _ | keyword _ | string _ => True

/-- All of the stored values mean something. -/
def MeaningfulAll : List Stored → Prop
  | [] => True
  | s :: ss => Meaningful s ∧ MeaningfulAll ss

end

theorem spell_extends {t u : Interner} (h : t.Extends u) {v : Value} (hv : v.Known t) :
    spell u v = spell t v :=
  (spell_of_same (hv.same.mono (.refl t) h)).symm

mutual

/-- A stored value that means something gives a value that is spelled like it; any other is
refused. -/
theorem toValue_cases :
    ∀ (s : Stored) (names : Interner),
      (s.Meaningful ∧ ∃ v names', toValue names s = (.ok v, names') ∧ spell names' v = s) ∨
        ¬ s.Meaningful ∧ ∃ f names', toValue names s = (.error f, names')
  | nil, names => .inl ⟨trivial, .nil, names, rfl, rfl⟩
  | bool b, names => .inl ⟨trivial, .bool b, names, rfl, rfl⟩
  | integer n, names => .inl ⟨trivial, .integer n, names, rfl, rfl⟩
  | string s, names => .inl ⟨trivial, .string s, names, rfl, rfl⟩
  | keyword name, names => by
    refine .inl ⟨trivial, .keyword (names.intern name).1, (names.intern name).2, rfl, ?_⟩
    rw [spell, Value.symbolText_of_name? (Interner.name?_of_find? (Interner.find?_intern _ _))]
  | function name, names => by
    rw [toValue]
    cases hfind : Builtin.find? name with
    | none =>
      exact .inr ⟨List.idxOf?_eq_none_iff.1 hfind, .unknownBuiltin name, names, rfl⟩
    | some index =>
      have hmem : name ∈ Builtin.names := by
        obtain ⟨hlt, hget, -⟩ := List.idxOf?_eq_some_iff.1 hfind
        exact hget ▸ List.getElem_mem hlt
      exact .inl ⟨hmem, .function index, names, rfl, by rw [spell, Builtin.name_of_find? hfind]⟩
  | vector elems, names => by
    rcases toValues_cases elems names with ⟨hall, vs, names', hvs, hspell⟩ | ⟨hnot, f, names', hvs⟩
    · exact .inl ⟨hall, .vector vs, names', by rw [toValue, hvs]; rfl, by rw [spell, hspell]⟩
    · exact .inr ⟨hnot, f, names', by rw [toValue, hvs]; rfl⟩
  | unlisted code, names => .inr ⟨id, .unknownKind code, names, rfl⟩

theorem toValues_cases :
    ∀ (ss : List Stored) (names : Interner),
      (MeaningfulAll ss ∧
        ∃ vs names', toValues names ss = (.ok vs, names') ∧ spellAll names' vs = ss) ∨
        ¬ MeaningfulAll ss ∧ ∃ f names', toValues names ss = (.error f, names')
  | [], names => .inl ⟨trivial, [], names, rfl, rfl⟩
  | s :: ss, names => by
    rw [toValues]
    rcases toValue_cases s names with ⟨hs, v, names₁, hv, hspell⟩ | ⟨hnot, f, names₁, hv⟩
    · have hknown := known_toValue (congrArg Prod.fst hv)
      have hext := extends_toValues names₁ ss
      rw [hv] at hknown ⊢
      rcases toValues_cases ss names₁ with
        ⟨hss, vs, names₂, hvs, hspells⟩ | ⟨hnot, f, names₂, hvs⟩
      · rw [hvs] at hext
        refine .inl ⟨⟨hs, hss⟩, v :: vs, names₂, by simp only [hvs]; rfl, ?_⟩
        rw [spellAll, hspells, spell_extends hext hknown, hspell]
      · exact .inr ⟨fun h => hnot h.2, f, names₂, by simp only [hvs]; rfl⟩
    · rw [hv]
      exact .inr ⟨fun h => hnot h.1, f, names₁, rfl⟩

end

end Stored

namespace Session

/-- Entries that all mean something give bindings that are spelled like them; otherwise they are
refused. -/
theorem revive_cases :
    ∀ (es : List Entry) (names : Interner),
      ((∀ e ∈ es, e.value.Meaningful) ∧
        ∃ bs names', revive names es = (.ok bs, names') ∧ bs.map (entryOf names') = es) ∨
        (∃ e ∈ es, ¬ e.value.Meaningful) ∧ ∃ f names', revive names es = (.error f, names')
  | [], names => .inl ⟨by simp, [], names, rfl, rfl⟩
  | e :: es, names => by
    rw [revive]
    rcases Stored.toValue_cases e.value names with
      ⟨he, v, names₁, hv, hspell⟩ | ⟨hnot, f, names₁, hv⟩
    · have hknown := Stored.known_toValue (congrArg Prod.fst hv)
      have hext := extends_revive es names₁
      rw [hv] at hknown ⊢
      rcases revive_cases es names₁ with
        ⟨hes, bs, names₂, hbs, hspells⟩ | ⟨⟨e', he', hnot⟩, f, names₂, hbs⟩
      · rw [hbs] at hext
        refine .inl ⟨List.forall_mem_cons.2 ⟨he, hes⟩, (e.name, v) :: bs, names₂,
          by simp only [hbs]; rfl, ?_⟩
        rw [List.map_cons, hspells, entryOf, Stored.spell_extends hext hknown, hspell]
      · exact .inr ⟨⟨e', List.mem_cons_of_mem e he', hnot⟩, f, names₂, by simp only [hbs]; rfl⟩
    · rw [hv]
      exact .inr ⟨⟨e, List.mem_cons_self, hnot⟩, f, names₁, rfl⟩

/-! ### What loading changes -/

/-- Nothing has changed but that names may have been added. -/
structure Refused (s s' : Session) : Prop where
  names : s.names.Extends s'.names
  rest : s' = { s with names := s'.names }

/-- Of all frames only the bindings of the user frame have changed, at the names of the entries.
Each of these is bound to a value that is spelled like the last entry of that name. -/
structure Loaded (s s' : Session) (es : List Entry) : Prop where
  names : s.names.Extends s'.names
  rest : s' = { s with
    names := s'.names
    stack := { s.stack with
      frames := s.stack.frames.setIfInBounds userPlace
        (some { s.definitions with bindings := s'.definitions.bindings }) } }
  taken : ∀ before e after, es = before ++ e :: after → (∀ e' ∈ after, e'.name ≠ e.name) →
    ∃ sym v, s'.names.find? e.name = some sym ∧ s'.definitions.bindings[sym]? = some v ∧
      Stored.spell s'.names v = e.value
  kept : ∀ sym, (∀ e ∈ es, s'.names.find? e.name ≠ some sym) →
    s'.definitions.bindings[sym]? = s.definitions.bindings[sym]?

variable {s s' : Session}

theorem rest_bindAll :
    ∀ {bs : List (Bytes × Value)} {s s' : Session}, s.bindAll bs = .ok s' →
      s' = { s with
        names := s'.names
        stack := { s.stack with frames := s'.stack.frames } }
  | [], _, _, h => by
    cases h
    rfl
  | (name, v) :: bs, s, s', h => by
    rw [Session.bindAll] at h
    split at h
    · cases h
    · rename_i stack hbind
      rcases Stack.frameAt_cases s.stack userPlace with ⟨scope, hscope, -⟩ | ⟨d, hframe⟩
      · rw [Stack.bindAt_of_frame hscope] at hbind
        cases hbind
        have hrest := rest_bindAll h
        exact hrest
      · rw [Stack.bindAt_of_error hframe] at hbind
        cases hbind

/-- Definitions are found by symbol as by name, also after names have been added. -/
theorem Proper.binding_eq_valueOf? (hs : s.Proper) {names : Interner} (hn : s.names.Extends names)
    {name : Bytes} {sym : Symbol} (h : names.find? name = some sym) :
    s.definitions.bindings[sym]? = s.valueOf? name := by
  rw [valueOf?, ← hs.named.valueOf?_extends hn (hn.nodup hs.nodup), Scope.valueOf?, h]
  rfl

theorem lookup_reverse_of_last {before after : List (Bytes × Value)} {b : Bytes × Value}
    (h : ∀ b' ∈ after, b'.1 ≠ b.1) : (before ++ b :: after).reverse.lookup b.1 = some b.2 := by
  have hafter : after.reverse.lookup b.1 = none := by
    refine List.lookup_eq_none_iff.2 fun b' hb' => ?_
    exact bne_iff_ne.2 (h b' (List.mem_reverse.1 hb')).symm
  rw [List.reverse_append, List.reverse_cons, List.append_assoc, List.lookup_append, hafter,
    Option.none_or, List.lookup_append, List.lookup_cons, beq_self_eq_true]
  rfl

/-- Binding the values of entries loads the entries. -/
theorem Proper.loaded_of_bindAll (hs : s.Proper) {names : Interner} (hn : s.names.Extends names)
    {bs : List (Bytes × Value)} (hknown : ∀ b ∈ bs, b.2.Known names)
    (hbind : { s with names := names }.bindAll bs = .ok s') :
    Loaded s s' (bs.map (entryOf names)) := by
  obtain ⟨_, hbind', hs'⟩ := Proper.bindAll (hs.withNames hn) hknown
  obtain rfl := Except.ok.inj (hbind.symm.trans hbind')
  obtain ⟨hext, -, hvalues⟩ := Proper.valueOf?_bindAll (hs.withNames hn) hknown hbind
  have hnames := hn.trans hext
  have hold (name : Bytes) : { s with names := names }.valueOf? name = s.valueOf? name :=
    hs.named.valueOf?_extends hn (hn.nodup hs.nodup) name
  refine ⟨hnames, ?_, fun before e after hsplit hlast => ?_, fun sym hsym => ?_⟩
  · obtain ⟨bindings, hframes⟩ := hs.frames
    obtain ⟨bindings', hframes'⟩ := hs'.frames
    have hset : s'.stack.frames = s.stack.frames.setIfInBounds userPlace
        (some { s.definitions with bindings := s'.definitions.bindings }) := by
      rw [(definitions_of_frames hframes).2, (definitions_of_frames hframes').2, hframes, hframes']
      rfl
    have hrest := rest_bindAll hbind
    rwa [hset] at hrest
  · obtain ⟨bs₁, bs', rfl, -, hbs'⟩ := List.map_eq_append_iff.1 hsplit
    obtain ⟨b, bs₂, rfl, rfl, rfl⟩ := List.map_eq_cons_iff.1 hbs'
    have hvalue : s'.valueOf? b.1 = some b.2 := by
      rw [hvalues, lookup_reverse_of_last fun b' hb' => hlast _ (List.mem_map_of_mem hb')]
      rfl
    obtain ⟨sym, hsym, hv⟩ := Option.bind_eq_some_iff.1 hvalue
    exact ⟨sym, b.2, hsym, hv, Stored.spell_extends hext (hknown b (by simp))⟩
  · by_cases hlt : sym < s'.names.size
    · have hname := (Interner.find?_eq_some_iff hs'.nodup).2 (Interner.name?_of_lt hlt)
      have hnone : bs.reverse.lookup (Value.symbolText s'.names sym) = none := by
        refine List.lookup_eq_none_iff.2 fun b hb => bne_iff_ne.2 fun heq => ?_
        rw [heq] at hname
        exact hsym _ (List.mem_map_of_mem (List.mem_reverse.1 hb)) hname
      rw [hs'.binding_eq_valueOf? (.refl _) hname, hs.binding_eq_valueOf? hnames hname, hvalues,
        hnone, hold]
      rfl
    · -- neither session has given out this symbol
      have hunbound {a : Session} (ha : a.Proper) (hsize : a.names.size ≤ s'.names.size) :
          a.definitions.bindings[sym]? = none := by
        refine Option.eq_none_iff_forall_not_mem.2 fun v hv => hlt ?_
        exact Nat.lt_of_lt_of_le (ha.named sym v hv) hsize
      rw [hunbound hs' (Nat.le_refl _), hunbound hs hnames.size_le]

/-- How loading ends: the bytes are no snapshot, the snapshot lists something meaningless, or all of
it is bound. -/
theorem Proper.load_cases (hs : s.Proper) (t : Bytes) :
    (∃ f, Snapshot.read t = .error f ∧ (s.load t).result = .error f ∧
        Refused s (s.load t).session) ∨
      (∃ shot f, Snapshot.read t = .ok shot ∧ (∃ e ∈ shot.entries, ¬ e.value.Meaningful) ∧
        (s.load t).result = .error (.meaningless f) ∧ Refused s (s.load t).session) ∨
      ∃ shot, Snapshot.read t = .ok shot ∧ (∀ e ∈ shot.entries, e.value.Meaningful) ∧
        (s.load t).result = .ok (Uuid.text shot.origin) ∧
        Loaded s (s.load t).session shot.entries := by
  cases hread : Snapshot.read t with
  | error f =>
    rw [load_of_read_error hread]
    exact .inl ⟨f, rfl, rfl, .refl _, rfl⟩
  | ok shot =>
    have hn := extends_revive shot.entries s.names
    rcases revive_cases shot.entries s.names with
      ⟨hall, bs, names, hrevive, hbs⟩ | ⟨hnot, f, names, hrevive⟩
    · have hknown := known_revive (congrArg Prod.fst hrevive)
      rw [hrevive] at hn hknown
      obtain ⟨s', hbind, -⟩ := Proper.bindAll (hs.withNames hn) hknown
      have hloaded := hs.loaded_of_bindAll hn hknown hbind
      rw [hbs] at hloaded
      rw [load_of_read hread hrevive hbind]
      exact .inr (.inr ⟨shot, rfl, hall, rfl, hloaded⟩)
    · rw [hrevive] at hn
      have hload : s.load t = ⟨.error (.meaningless f), { s with names := names }, []⟩ := by
        rw [Session.load, hread]
        simp only [hrevive]
      rw [hload]
      exact .inr (.inl ⟨shot, f, rfl, hnot, rfl, hn, rfl⟩)

/-- Loading any bytes into a session that can be reached succeeds exactly if they spell a snapshot
all of whose values mean something.  If it fails, the session is as it was, frame by frame, but for
names that may have been added.  If it succeeds, it gives the identifier in the snapshot, and of all
frames only the bindings of the user frame have changed, at the names that the snapshot lists. -/
theorem load_all_or_nothing (h : s.Reachable) (t : Bytes) :
    ((∃ origin, (s.load t).result = .ok origin) ↔
      ∃ shot, Snapshot.read t = .ok shot ∧ ∀ e ∈ shot.entries, e.value.Meaningful) ∧
    (∀ f, (s.load t).result = .error f → Refused s (s.load t).session) ∧
    ∀ origin, (s.load t).result = .ok origin →
      ∃ shot, Snapshot.read t = .ok shot ∧ origin = Uuid.text shot.origin ∧
        Loaded s (s.load t).session shot.entries := by
  rcases h.proper.load_cases t with ⟨f, hread, hresult, hrefused⟩ |
    ⟨shot, f, hread, ⟨e, he, hnot⟩, hresult, hrefused⟩ | ⟨shot, hread, hall, hresult, hloaded⟩
  · rw [hresult, hread]
    refine ⟨⟨?_, ?_⟩, fun _ _ => hrefused, ?_⟩
    · rintro ⟨_, ⟨⟩⟩
    · rintro ⟨_, ⟨⟩, _⟩
    · rintro _ ⟨⟩
  · rw [hresult, hread]
    refine ⟨⟨?_, ?_⟩, fun _ _ => hrefused, ?_⟩
    · rintro ⟨_, ⟨⟩⟩
    · rintro ⟨_, ⟨⟩, hall⟩
      exact absurd (hall e he) hnot
    · rintro _ ⟨⟩
  · rw [hresult, hread]
    refine ⟨⟨fun _ => ⟨shot, rfl, hall⟩, fun _ => ⟨_, rfl⟩⟩, ?_, ?_⟩
    · rintro _ ⟨⟩
    · rintro _ ⟨⟩
      exact ⟨shot, rfl, rfl, hloaded⟩

/-- An unknown function inside the last entry, after a keyword that has been given a symbol already;
and a name that is listed twice. -/
theorem load_all_or_nothing_twice :
    let s := (start [] {}).session
    let id := List.replicate 16 0
    let bad := Snapshot.frame .messagePack id (Pack.writeEntries
      [⟨utf8 "x", .keyword (utf8 "k")⟩, ⟨utf8 "y", .vector [.function (utf8 "no")]⟩])
    let good := Snapshot.frame .messagePack id (Pack.writeEntries
      [⟨utf8 "x", .integer 1⟩, ⟨utf8 "x", .keyword (utf8 "k")⟩])
    (∃ f, (s.load bad).result = .error f) ∧ Refused s (s.load bad).session ∧
      (s.load good).result = .ok (Uuid.text id) ∧
      ∃ sym v, (s.load good).session.names.find? (utf8 "x") = some sym ∧
        (s.load good).session.definitions.bindings[sym]? = some v ∧
        Stored.spell (s.load good).session.names v = .keyword (utf8 "k") := by
  intro s id bad good
  have hread {es : List Entry} (hlen : es.length < 4294967296) (hfits : ∀ e ∈ es, e.Fits) :
      Snapshot.read (Snapshot.frame .messagePack id (Pack.writeEntries es)) =
        .ok ⟨.messagePack, id, es⟩ := by
    rw [Snapshot.read_frame rfl rfl, Snapshot.decode, Pack.readEntries_writeEntries hlen hfits]
    rfl
  have hshort (text : String) (h : (utf8 text).length < 3) : (utf8 text).length < 4294967296 :=
    Nat.lt_trans h (by decide)
  have hx := hshort "x" (by decide +kernel)
  have hy := hshort "y" (by decide +kernel)
  have hk := hshort "k" (by decide +kernel)
  have hno := hshort "no" (by decide +kernel)
  have hbad : Snapshot.read bad = _ := hread (by decide) fun e he => by
    simp only [List.mem_cons, List.not_mem_nil, or_false] at he
    rcases he with rfl | rfl
    · exact ⟨hx, hk⟩
    · exact ⟨hy, by decide, hno, trivial⟩
  have hgood : Snapshot.read good = _ := hread (by decide) fun e he => by
    simp only [List.mem_cons, List.not_mem_nil, or_false] at he
    rcases he with rfl | rfl
    · exact ⟨hx, trivial⟩
    · exact ⟨hx, hk⟩
  obtain ⟨hiff, hfail, -⟩ := load_all_or_nothing (.start [] {}) bad
  obtain ⟨hiff', -, hdone⟩ := load_all_or_nothing (.start [] {}) good
  have hrefused : ∃ f, (s.load bad).result = .error f := by
    cases hresult : (s.load bad).result with
    | error f => exact ⟨f, rfl⟩
    | ok origin =>
      obtain ⟨shot, hshot, hall⟩ := hiff.1 ⟨origin, hresult⟩
      rw [hbad] at hshot
      cases hshot
      have hnope := (hall _ (List.mem_cons_of_mem _ List.mem_cons_self)).1
      have : utf8 "no" ∉ Builtin.names := by decide +kernel
      exact absurd hnope this
  obtain ⟨origin, hresult⟩ := hiff'.2 ⟨_, hgood, by simp [Stored.Meaningful]⟩
  obtain ⟨shot, hshot, horigin, hloaded⟩ := hdone origin hresult
  rw [hgood] at hshot
  cases hshot
  obtain ⟨f, hf⟩ := hrefused
  refine ⟨⟨f, hf⟩, hfail f hf, horigin ▸ hresult, ?_⟩
  exact hloaded.taken [⟨utf8 "x", .integer 1⟩] ⟨utf8 "x", .keyword (utf8 "k")⟩ [] rfl (by simp)

end Session

end SpanLisp
