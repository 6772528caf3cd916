import Mathlib.Data.List.Forall2
import Mathlib.Data.List.Nodup
import SpanLisp.Proofs.Sessions

/-! Symbols stand for names: bindings are looked up, listed and compared by name. -/

namespace SpanLisp

namespace Interner

/-- The two tables of an interner are inverse to each other. -/
theorem find?_eq_some_iff {t : Interner} (h : t.names.Nodup) {name : Bytes} {sym : Symbol} :
    t.find? name = some sym ↔ t.name? sym = some name := by
  refine ⟨name?_of_find?, fun hname => ?_⟩
  obtain ⟨hlt, hget⟩ := List.getElem?_eq_some_iff.1 hname
  refine List.idxOf?_eq_some_iff.2 ⟨hlt, hget, fun j hj hjeq => ?_⟩
  have hjlt : j < t.names.length := Nat.lt_trans hj hlt
  have : j = sym := (List.Nodup.getElem_inj_iff h).1 (hjeq.trans hget.symm)
  omega

/-- Do the symbols stand for the same name? -/
def SameName (t u : Interner) (a b : Symbol) : Prop :=
  ∃ name, t.name? a = some name ∧ u.name? b = some name

theorem SameName.mono {t t' u u' : Interner} (ht : t.Extends t') (hu : u.Extends u')
    {a b : Symbol} : SameName t u a b → SameName t' u' a b
  | ⟨name, ha, hb⟩ => ⟨name, ht.name? ha, hu.name? hb⟩

/-- A name has the same name in any two interners that know it. -/
theorem sameName_intern (t u : Interner) (name : Bytes) :
    SameName (t.intern name).2 (u.intern name).2 (t.intern name).1 (u.intern name).1 :=
  ⟨name, name?_of_find? (find?_intern t name), name?_of_find? (find?_intern u name)⟩

theorem name?_of_lt {t : Interner} {sym : Symbol} (h : sym < t.size) :
    t.name? sym = some (Value.symbolText t sym) := by
  rw [Value.symbolText, name?, List.getElem?_eq_getElem h]
  rfl

end Interner

section Rel

variable {α β : Type} {R : α → β → Prop}

theorem exists_of_rel_left {a : α} {y : Option β} (h : Option.Rel R (some a) y) :
    ∃ b, y = some b ∧ R a b := by
  cases h with
  | some h => exact ⟨_, rfl, h⟩

theorem exists_of_rel_right {x : Option α} {b : β} (h : Option.Rel R x (some b)) :
    ∃ a, x = some a ∧ R a b := by
  cases h with
  | some h => exact ⟨_, rfl, h⟩

theorem eq_none_of_rel {y : Option β} (h : Option.Rel R none y) : y = none := by
  cases h
  rfl

theorem rel_or {x x' : Option α} {y y' : Option β} (h : Option.Rel R x y)
    (h' : Option.Rel R x' y') : Option.Rel R (x.or x') (y.or y') := by
  cases h with
  | none => exact h'
  | some h => exact .some h

end Rel

namespace Value

mutual

/-- Are the values the same but for the numbers of keywords?  Keywords are compared by name. -/
def Same (t u : Interner) : Value → Value → Prop
  | nil, nil => True
  | bool a, bool b => a = b
  | function i, function j => i = j
  | integer m, integer n => m = n
  | keyword a, keyword b => Interner.SameName t u a b
  | string a, string b => a = b
  | vector vs, vector ws => SameAll t u vs ws
  | unlisted c, unlisted d => c = d
  | _, _ => False

/-- Are the values the same in pairs? -/
def SameAll (t u : Interner) : List Value → List Value → Prop
  | [], [] => True
  | v :: vs, w :: ws => Same t u v w ∧ SameAll t u vs ws
  | _, _ => False

end

variable {t u t' u' : Interner}

mutual

theorem Same.mono (ht : t.Extends t') (hu : u.Extends u') :
    ∀ {v w : Value}, v.Same t u w → v.Same t' u' w
  | nil, nil, _ => trivial
  | bool _, bool _, h | function _, function _, h | integer _, integer _, h
  | string _, string _, h | unlisted _, unlisted _, h => h
  | keyword _, keyword _, h => Interner.SameName.mono ht hu h
  | vector _, vector _, h => SameAll.mono ht hu h

theorem SameAll.mono (ht : t.Extends t') (hu : u.Extends u') :
    ∀ {vs ws : List Value}, SameAll t u vs ws → SameAll t' u' vs ws
  | [], [], _ => trivial
  | _ :: _, _ :: _, ⟨hv, hvs⟩ => ⟨hv.mono ht hu, hvs.mono ht hu⟩

end

theorem rel_same_mono (ht : t.Extends t') (hu : u.Extends u') {x y : Option Value}
    (h : Option.Rel (Same t u) x y) : Option.Rel (Same t' u') x y := by
  cases h with
  | none => exact .none
  | some h => exact .some (h.mono ht hu)

mutual

theorem Known.same : ∀ {v : Value}, v.Known t → v.Same t t v
  | nil, _ => trivial
  | bool _, _ | function _, _ | integer _, _ | string _, _ => rfl
  | keyword _, hv => ⟨_, Interner.name?_of_lt hv, Interner.name?_of_lt hv⟩
  | vector _, hv => KnownAll.same hv

theorem KnownAll.same : ∀ {vs : List Value}, KnownAll t vs → SameAll t t vs vs
  | [], _ => trivial
  | _ :: _, ⟨hv, hvs⟩ => ⟨hv.same, hvs.same⟩

end

/-! ### The texts of same values -/

theorem symbolText_of_name? {name : Bytes} {sym : Symbol} (h : t.name? sym = some name) :
    symbolText t sym = name := by
  rw [symbolText, h]
  rfl

theorem keywordText_of_names {a b : Symbol} {name : Bytes} (ha : t.name? a = some name)
    (hb : u.name? b = some name) : keywordText t a = keywordText u b := by
  rw [keywordText, keywordText, symbolText_of_name? ha, symbolText_of_name? hb]

mutual

theorem Same.write : ∀ {v w : Value}, v.Same t u w → ∀ rest, v.write t rest = w.write u rest
  | nil, nil, _, _ => rfl
  | bool _, bool _, rfl, _ | function _, function _, rfl, _ | integer _, integer _, rfl, _
  | string _, string _, rfl, _ | unlisted _, unlisted _, rfl, _ => rfl
  | keyword _, keyword _, ⟨_, ha, hb⟩, rest => by
    rw [Value.write, Value.write, keywordText_of_names ha hb]
  | vector _, vector _, h, rest => by
    rw [Value.write, Value.write, SameAll.writeAll h]

theorem SameAll.writeAll : ∀ {vs ws : List Value}, SameAll t u vs ws →
    ∀ rest, Value.writeAll t vs rest = Value.writeAll u ws rest
  | [], [], _, _ => rfl
  | [_], [_], ⟨hv, _⟩, rest => hv.write rest
  | v :: v' :: vs, w :: w' :: ws, ⟨hv, hvs⟩, rest => by
    change v.write t (0x20 :: Value.writeAll t (v' :: vs) rest) =
      w.write u (0x20 :: Value.writeAll u (w' :: ws) rest)
    rw [SameAll.writeAll hvs, hv.write]

end

mutual

theorem Same.toJson : ∀ {v w : Value}, v.Same t u w → v.toJson t = w.toJson u
  | nil, nil, _ => rfl
  | bool _, bool _, rfl | function _, function _, rfl | integer _, integer _, rfl
  | string _, string _, rfl | unlisted _, unlisted _, rfl => rfl
  | keyword _, keyword _, ⟨_, ha, hb⟩ => by
    rw [Value.toJson, Value.toJson, keywordText_of_names ha hb]
  | vector _, vector _, h => by
    rw [Value.toJson, Value.toJson, SameAll.toJsonAll h]

theorem SameAll.toJsonAll : ∀ {vs ws : List Value}, SameAll t u vs ws →
    Value.toJsonAll t vs = Value.toJsonAll u ws
  | [], [], _ => rfl
  | _ :: _, _ :: _, ⟨hv, hvs⟩ => by
    rw [Value.toJsonAll, Value.toJsonAll, hv.toJson, SameAll.toJsonAll hvs]

end

mutual

theorem Same.check : ∀ {v w : Value}, v.Same t u w → v.check t = w.check u
  | nil, nil, _ | bool _, bool _, _ | integer _, integer _, _ | string _, string _, _
  | unlisted _, unlisted _, _ => rfl
  | function _, function _, rfl => rfl
  | keyword _, keyword _, ⟨_, ha, hb⟩ => by
    rw [Value.check, Value.check, Interner.resolve, Interner.resolve, ha, hb]
  | vector _, vector _, h => by
    rw [Value.check, Value.check, SameAll.checkAll h]

theorem SameAll.checkAll : ∀ {vs ws : List Value}, SameAll t u vs ws →
    Value.checkAll t vs = Value.checkAll u ws
  | [], [], _ => rfl
  | _ :: _, _ :: _, ⟨hv, hvs⟩ => by
    rw [Value.checkAll, Value.checkAll, hv.check, SameAll.checkAll hvs]

end

theorem Same.display {v w : Value} (h : v.Same t u w) : v.display t = w.display u := by
  rw [Value.display, Value.display, h.check, h.write]

theorem Same.json {v w : Value} (h : v.Same t u w) : v.json t = w.json u := by
  rw [Value.json, Value.json, h.check, h.toJson]

theorem Same.kindCode : ∀ {v w : Value}, v.Same t u w → v.kindCode = w.kindCode
  | nil, nil, _ | bool _, bool _, _ | function _, function _, _ | integer _, integer _, _
  | string _, string _, _ | keyword _, keyword _, _ | vector _, vector _, _ => rfl
  | unlisted _, unlisted _, h => h

theorem Same.isTruthy : ∀ {v w : Value}, v.Same t u w → v.isTruthy = w.isTruthy
  | nil, nil, _ | function _, function _, _ | integer _, integer _, _
  | string _, string _, _ | keyword _, keyword _, _ | vector _, vector _, _
  | unlisted _, unlisted _, _ => rfl
  | bool _, bool _, h => h

end Value

/-- A function is found under its name at its place. -/
theorem Builtin.find?_of_get? {index : Int} {f : Builtin} (h : get? index = some f) :
    find? f.name = some index.toNat ∧ (index.toNat : Int) = index := by
  unfold get? at h
  split at h
  · cases h
  · rename_i hpos
    have hname : (Interner.mk names).name? index.toNat = some f.name := by
      rw [Interner.name?, names, List.getElem?_map, h]
      rfl
    have hnodup : names.Nodup := by decide +kernel
    exact ⟨(Interner.find?_eq_some_iff hnodup).2 hname, Int.toNat_of_nonneg (by omega)⟩

namespace Stored

variable {t u : Interner}

mutual

theorem spell_of_same : ∀ {v w : Value}, v.Same t u w → spell t v = spell u w
  | .nil, .nil, _ => rfl
  | .bool _, .bool _, rfl | .function _, .function _, rfl | .integer _, .integer _, rfl
  | .string _, .string _, rfl | .unlisted _, .unlisted _, rfl => rfl
  | .keyword _, .keyword _, ⟨_, ha, hb⟩ => by
    rw [spell, spell, Value.symbolText_of_name? ha, Value.symbolText_of_name? hb]
  | .vector _, .vector _, h => by
    rw [spell, spell, spellAll_of_same h]

theorem spellAll_of_same : ∀ {vs ws : List Value}, Value.SameAll t u vs ws →
    spellAll t vs = spellAll u ws
  | [], [], _ => rfl
  | _ :: _, _ :: _, ⟨hv, hvs⟩ => by
    rw [spellAll, spellAll, spell_of_same hv, spellAll_of_same hvs]

end

theorem ofValue_of_same {v w : Value} (h : v.Same t u w) : ofValue t v = ofValue u w := by
  rw [ofValue, ofValue, h.check, spell_of_same h]

theorem ofValue_of_known {v : Value} (h : v.Known t) : ofValue t v = .ok (spell t v) := by
  rw [ofValue, Value.check_of_known h]
  rfl

mutual

/-- A known value that is spelled and given symbols again is the same value. -/
theorem toValue_spell :
    ∀ {v : Value}, v.Known t → ∀ u,
      ∃ w u', toValue u (spell t v) = (.ok w, u') ∧ v.Same t u' w
  | .nil, _, u => ⟨.nil, u, rfl, trivial⟩
  | .bool b, _, u => ⟨.bool b, u, rfl, rfl⟩
  | .integer n, _, u => ⟨.integer n, u, rfl, rfl⟩
  | .string s, _, u => ⟨.string s, u, rfl, rfl⟩
  | .keyword sym, h, u => by
    refine ⟨.keyword (u.intern (Value.symbolText t sym)).1, _, rfl, Value.symbolText t sym,
      Interner.name?_of_lt h, ?_⟩
    exact Interner.name?_of_find? (Interner.find?_intern u _)
  | .function index, ⟨f, hf⟩, u => by
    obtain ⟨hfind, hindex⟩ := Builtin.find?_of_get? hf
    refine ⟨.function index, u, ?_, rfl⟩
    rw [spell, hf, Option.map_some, Option.getD_some, toValue, hfind]
    simp only [hindex]
  | .vector vs, h, u => by
    obtain ⟨ws, u', hvs, hsame⟩ := toValues_spellAll h u
    refine ⟨.vector ws, u', ?_, hsame⟩
    rw [spell, toValue, hvs]
    rfl

theorem toValues_spellAll :
    ∀ {vs : List Value}, Value.KnownAll t vs → ∀ u,
      ∃ ws u', toValues u (spellAll t vs) = (.ok ws, u') ∧ Value.SameAll t u' vs ws
  | [], _, u => ⟨[], u, rfl, trivial⟩
  | v :: vs, ⟨hv, hvs⟩, u => by
    obtain ⟨w, u₁, hw, hsame⟩ := toValue_spell hv u
    obtain ⟨ws, u₂, hws, hsames⟩ := toValues_spellAll hvs u₁
    have hext := extends_toValues u₁ (spellAll t vs)
    rw [hws] at hext
    refine ⟨w :: ws, u₂, ?_, hsame.mono (.refl t) hext, hsames⟩
    rw [spellAll, toValues, hw]
    simp only [hws]
    rfl

end

end Stored

/-! ### Bindings by name -/

namespace Scope

/-- The value bound to a name, if symbols stand for the names of the interner. -/
def valueOf? (s : Scope) (names : Interner) (name : Bytes) : Option Value :=
  (names.find? name).bind fun sym => s.bindings[sym]?

/-- Every symbol that is bound has a name. -/
def Named (s : Scope) (names : Interner) : Prop :=
  ∀ sym v, s.bindings[sym]? = some v → sym < names.size

variable {s : Scope} {names names' : Interner}

/-- New names are not bound. -/
theorem Named.valueOf?_extends (h : s.Named names) (hn : names.Extends names')
    (hnodup : names'.names.Nodup) (name : Bytes) :
    s.valueOf? names' name = s.valueOf? names name := by
  cases hold : names.find? name with
  | some sym => rw [valueOf?, valueOf?, hold, hn.find? hold]
  | none =>
    cases hnew : names'.find? name with
    | none => rw [valueOf?, valueOf?, hold, hnew]
    | some sym =>
      rw [valueOf?, valueOf?, hold, hnew, Option.bind_some, Option.bind_none]
      cases hv : s.bindings[sym]? with
      | none => rfl
      | some v =>
        exfalso
        have hname := hn.name? (Interner.name?_of_lt (h sym v hv))
        rw [Interner.name?_of_find? hnew] at hname
        have hknown : names.find? name = some sym := by
          obtain ⟨more, hmore⟩ := hn.keeps
          have hnodup' : names.names.Nodup := (List.nodup_append.1 (hmore ▸ hnodup)).1
          rw [Interner.find?_eq_some_iff hnodup', Interner.name?_of_lt (h sym v hv)]
          exact hname.symm
        rw [hold] at hknown
        cases hknown

theorem valueOf?_bind {sym : Symbol} {name : Bytes} (hsym : names.find? name = some sym) (v : Value)
    (other : Bytes) :
    (s.bind sym v).valueOf? names other =
      if other = name then some v else s.valueOf? names other := by
  unfold valueOf? Scope.bind
  split
  · rename_i heq
    rw [heq, hsym]
    simp
  · rename_i hne
    cases hother : names.find? other with
    | none => rfl
    | some sym' =>
      have hsyms : sym ≠ sym' := by
        rintro rfl
        have := (Interner.name?_of_find? hother).symm.trans (Interner.name?_of_find? hsym)
        exact hne (Option.some.inj this)
      simp [Std.ExtTreeMap.getElem?_insert, hsyms]

/-! ### Listing by name -/

theorem collect_of_ok {α β : Type} {f : α → Except Defect β} {g : α → β} {l : List α}
    (h : ∀ a ∈ l, f a = .ok (g a)) : collect f l = .ok (l.map g) := by
  induction l with
  | nil => rfl
  | cons a l ih =>
    rw [collect, h a List.mem_cons_self, ih fun b hb => h b (List.mem_cons_of_mem a hb)]
    rfl

theorem collect_congr {α β γ : Type} {f : α → Except Defect γ} {g : β → Except Defect γ}
    {as : List α} {bs : List β} (h : List.Forall₂ (fun a b => f a = g b) as bs) :
    collect f as = collect g bs := by
  induction h with
  | nil => rfl
  | cons hab _ ih => rw [collect, collect, hab, ih]

/-- The bindings with their names, in the order of the symbols. -/
def spelled (s : Scope) (names : Interner) : List (Bytes × Value) :=
  s.bindings.toList.map fun b => (Value.symbolText names b.1, b.2)

theorem mem_spelled_iff (h : s.Named names) (hnodup : names.names.Nodup) {b : Bytes × Value} :
    b ∈ s.spelled names ↔ s.valueOf? names b.1 = some b.2 := by
  obtain ⟨name, v⟩ := b
  simp only [spelled, valueOf?, List.mem_map, Option.bind_eq_some_iff, Prod.mk.injEq, Prod.exists]
  constructor
  · rintro ⟨sym, v', hmem, hname, rfl⟩
    have hv := Std.ExtTreeMap.mem_toList_iff_getElem?_eq_some.1 hmem
    refine ⟨sym, (Interner.find?_eq_some_iff hnodup).2 ?_, hv⟩
    rw [Interner.name?_of_lt (h sym v' hv), hname]
  · rintro ⟨sym, hsym, hv⟩
    exact ⟨sym, v, Std.ExtTreeMap.mem_toList_iff_getElem?_eq_some.2 hv,
      Value.symbolText_of_name? (Interner.name?_of_find? hsym), rfl⟩

theorem pairwise_spelled (h : s.Named names) (hnodup : names.names.Nodup) :
    (s.spelled names).Pairwise fun a b => a.1 ≠ b.1 := by
  have hkeys : s.bindings.toList.Pairwise fun a b => a.1 ≠ b.1 := by
    refine Std.ExtTreeMap.distinct_keys_toList.imp fun {a b} hab heq => hab ?_
    rw [heq]
    exact Std.ReflCmp.compare_self
  refine List.pairwise_map.2 (hkeys.imp_of_mem fun {a b} ha hb hab heq => hab ?_)
  have hfind {c : Symbol × Value} (hc : c ∈ s.bindings.toList) :
      names.find? (Value.symbolText names c.1) = some c.1 :=
    (Interner.find?_eq_some_iff hnodup).2 <| Interner.name?_of_lt <|
      h c.1 c.2 (Std.ExtTreeMap.mem_toList_iff_getElem?_eq_some.1 hc)
  have hsame := hfind ha
  simp only at heq
  rw [heq, hfind hb] at hsame
  exact (Option.some.inj hsame).symm

/-- Every frame whose symbols have names can be listed: each name once, in order. -/
theorem byName_of_named (h : s.Named names) (hnodup : names.names.Nodup) :
    ∃ bs, s.byName names = .ok bs ∧ bs.Pairwise (fun a b => a.1 < b.1) ∧
      (∀ b, b ∈ bs ↔ s.valueOf? names b.1 = some b.2) ∧ bs.length = s.size := by
  have hcollect : collect (fun b => (names.resolve b.1).map (·, b.2)) s.bindings.toList =
      .ok (s.spelled names) := by
    refine collect_of_ok fun b hb => ?_
    have hlt := h b.1 b.2 (Std.ExtTreeMap.mem_toList_iff_getElem?_eq_some.1 hb)
    rw [Interner.resolve, Interner.name?_of_lt hlt]
    rfl
  have hperm := List.mergeSort_perm (s.spelled names) fun a b => Bytes.atMost a.1 b.1
  refine ⟨(s.spelled names).mergeSort fun a b => Bytes.atMost a.1 b.1, ?_, ?_, ?_, ?_⟩
  · rw [byName, hcollect]
    rfl
  · have htrans (a b c : Bytes × Value) (hab : Bytes.atMost a.1 b.1 = true)
        (hbc : Bytes.atMost b.1 c.1 = true) : Bytes.atMost a.1 c.1 = true := by
      simp only [Bytes.atMost, Bool.not_eq_true', decide_eq_false_iff_not, List.not_lt] at hab hbc ⊢
      exact List.le_trans hab hbc
    have htotal (a b : Bytes × Value) :
        (Bytes.atMost a.1 b.1 || Bytes.atMost b.1 a.1) = true := by
      simp only [Bytes.atMost, Bool.or_eq_true, Bool.not_eq_true', decide_eq_false_iff_not,
        List.not_lt]
      exact List.le_total a.1 b.1
    have hsorted := List.pairwise_mergeSort htrans htotal (s.spelled names)
    have hdistinct := (pairwise_spelled h hnodup).perm hperm.symm fun hab => hab.symm
    refine (hsorted.and hdistinct).imp fun {a b} hab => ?_
    have hle : a.1 ≤ b.1 := by
      simpa only [Bytes.atMost, Bool.not_eq_true', decide_eq_false_iff_not, List.not_lt]
        using hab.1
    exact (List.le_iff_lt_or_eq.1 hle).resolve_right hab.2
  · intro b
    rw [hperm.mem_iff, mem_spelled_iff h hnodup]
  · rw [hperm.length_eq, spelled, List.length_map, Std.ExtTreeMap.length_toList, size]

/-- Lists in strict order that bind the same names to related values are related in pairs. -/
theorem forall₂_of_sorted {α β : Type} {R : α → β → Prop} :
    ∀ {as : List (Bytes × α)} {bs : List (Bytes × β)},
      as.Pairwise (fun a b => a.1 < b.1) → bs.Pairwise (fun a b => a.1 < b.1) →
      (∀ a ∈ as, ∃ b ∈ bs, a.1 = b.1 ∧ R a.2 b.2) →
      (∀ b ∈ bs, ∃ a ∈ as, a.1 = b.1 ∧ R a.2 b.2) →
      List.Forall₂ (fun a b => a.1 = b.1 ∧ R a.2 b.2) as bs
  | [], [], _, _, _, _ => .nil
  | [], b :: bs, _, _, _, hbs => by
    obtain ⟨a, ha, -⟩ := hbs b List.mem_cons_self
    cases ha
  | a :: as, [], _, _, has, _ => by
    obtain ⟨b, hb, -⟩ := has a List.mem_cons_self
    cases hb
  | a :: as, b :: bs, hsa, hsb, has, hbs => by
    rw [List.pairwise_cons] at hsa hsb
    -- the least names of the two lists are equal
    have hhead : a.1 = b.1 ∧ R a.2 b.2 := by
      obtain ⟨b', hb', heq, hR⟩ := has a List.mem_cons_self
      rcases List.mem_cons.1 hb' with rfl | hb'
      · exact ⟨heq, hR⟩
      obtain ⟨a', ha', heq', hR'⟩ := hbs b List.mem_cons_self
      rcases List.mem_cons.1 ha' with rfl | ha'
      · exact ⟨heq', hR'⟩
      exfalso
      have h₁ := hsb.1 b' hb'
      have h₂ := hsa.1 a' ha'
      rw [← heq] at h₁
      rw [heq'] at h₂
      exact List.lt_irrefl _ (List.lt_trans h₁ h₂)
    refine .cons hhead (forall₂_of_sorted hsa.2 hsb.2 ?_ ?_)
    · intro a' ha'
      obtain ⟨b', hb', heq, hR⟩ := has a' (List.mem_cons_of_mem a ha')
      rcases List.mem_cons.1 hb' with rfl | hb'
      · have hlt := hsa.1 a' ha'
        rw [heq, hhead.1] at hlt
        exact absurd hlt (List.lt_irrefl _)
      · exact ⟨b', hb', heq, hR⟩
    · intro b' hb'
      obtain ⟨a', ha', heq, hR⟩ := hbs b' (List.mem_cons_of_mem b hb')
      rcases List.mem_cons.1 ha' with rfl | ha'
      · have hlt := hsb.1 b' hb'
        rw [← heq, ← hhead.1] at hlt
        exact absurd hlt (List.lt_irrefl _)
      · exact ⟨a', ha', heq, hR⟩

end Scope

end SpanLisp
