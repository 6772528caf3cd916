import SpanLisp.Json.Writer
import SpanLisp.Snapshot.Stored
import SpanLisp.Proofs.Interning

/-!
# Known values

A value is known to an interner (`Value.Known`) if its keywords are symbols of the interner, its
functions have a place in the table and its kinds have a name.  Known values can be displayed and
written as JSON.  The builtins and the reading of stored values give known values only
(`known_of_apply`, `Stored.known_toValue`).
-/

namespace SpanLisp

namespace Value

mutual

/-- Every keyword, function and kind inside the value is known. -/
def Known (names : Interner) : Value → Prop
  | keyword sym => sym < names.size
  | function index => ∃ f, Builtin.get? index = some f
  | vector vs => KnownAll names vs
  | unlisted _ => False
  | nil | bool _ | integer _ | string _ => True

/-- Every keyword, function and kind inside the values is known. -/
def KnownAll (names : Interner) : List Value → Prop
  | [] => True
  | v :: vs => Known names v ∧ KnownAll names vs

end

mutual

theorem Known.mono {names names' : Interner} (hn : names.Extends names') :
    ∀ {v : Value}, v.Known names → v.Known names'
  | keyword _, h => Nat.lt_of_lt_of_le h hn.size_le
  | function _, h => h
  | vector _, h => KnownAll.mono hn h
  | nil, _ | bool _, _ | integer _, _ | string _, _ => trivial

theorem KnownAll.mono {names names' : Interner} (hn : names.Extends names') :
    ∀ {vs : List Value}, KnownAll names vs → KnownAll names' vs
  | [], _ => trivial
  | _ :: _, ⟨hv, hvs⟩ => ⟨hv.mono hn, hvs.mono hn⟩

end

/-! ### Showing known values -/

mutual

theorem check_of_known {names : Interner} : ∀ {v : Value}, v.Known names → v.check names = .ok ()
  | keyword sym, h => by
    obtain ⟨name, hname⟩ := Interner.resolve_of_lt h
    rw [check, hname]
    rfl
  | function index, ⟨f, hf⟩ => by
    rw [check, Builtin.nameAt, hf]
    rfl
  | vector _, h => checkAll_of_known h
  | nil, _ | bool _, _ | integer _, _ | string _, _ => rfl

theorem checkAll_of_known {names : Interner} :
    ∀ {vs : List Value}, KnownAll names vs → checkAll names vs = .ok ()
  | [], _ => rfl
  | _ :: _, ⟨hv, hvs⟩ => by
    rw [checkAll, check_of_known hv]
    exact checkAll_of_known hvs

end

theorem display_of_known {names : Interner} {v : Value} (h : v.Known names) :
    v.display names = .ok (v.write names []) := by
  unfold display
  rw [check_of_known h]
  rfl

theorem json_of_known {names : Interner} {v : Value} (h : v.Known names) :
    v.json names = .ok (v.toJson names).render := by
  unfold json
  rw [check_of_known h]
  rfl

end Value

/-! ### Where known values come from -/

namespace Builtin

theorem exists_integer_of_arithmetic {name : Bytes} {args : List Value} {v : Value}
    (h : arithmetic name args = .ok v) : ∃ n, v = .integer n := by
  unfold arithmetic at h
  split at h
  · cases h
  · rename_i a b _
    have hdivide : (divide a b).map Value.integer = .ok v → ∃ n, v = .integer n := by
      intro h
      cases hd : divide a b with
      | error e =>
        rw [hd] at h
        cases h
      | ok n =>
        rw [hd] at h
        cases h
        exact ⟨n, rfl⟩
    repeat' split at h
    · exact ⟨_, (Except.ok.inj h).symm⟩
    · exact ⟨_, (Except.ok.inj h).symm⟩
    · exact ⟨_, (Except.ok.inj h).symm⟩
    · exact hdivide h
    · cases h

theorem exists_bool_of_compare {name : Bytes} {args : List Value} {v : Value}
    (h : compare name args = .ok v) : ∃ b, v = .bool b := by
  unfold compare at h
  split at h
  · cases h
  · repeat' split at h
    · exact ⟨_, (Except.ok.inj h).symm⟩
    · exact ⟨_, (Except.ok.inj h).symm⟩
    · exact ⟨_, (Except.ok.inj h).symm⟩
    · exact ⟨_, (Except.ok.inj h).symm⟩
    · cases h

theorem mem_table_of_get? {index : Int} {f : Builtin} (h : get? index = some f) : f ∈ table := by
  unfold get? at h
  split at h
  · cases h
  · exact List.mem_of_getElem? h

/-- Every function of the table is arithmetic or a comparison. -/
theorem table_cases {f : Builtin} (h : f ∈ table) :
    (∃ name, f = ofArithmetic name) ∨ ∃ name, f = ofComparison name := by
  simp only [table, List.mem_cons, List.not_mem_nil, or_false] at h
  rcases h with h | h | h | h | h | h | h | h
  · exact .inl ⟨_, h⟩
  · exact .inl ⟨_, h⟩
  · exact .inl ⟨_, h⟩
  · exact .inl ⟨_, h⟩
  · exact .inr ⟨_, h⟩
  · exact .inr ⟨_, h⟩
  · exact .inr ⟨_, h⟩
  · exact .inr ⟨_, h⟩

/-- A function of the table gives known values. -/
theorem known_of_apply {index : Int} {f : Builtin} (hf : get? index = some f) {args : List Value}
    {v : Value} (h : f.apply args = .ok v) (names : Interner) : v.Known names := by
  rcases table_cases (mem_table_of_get? hf) with ⟨name, rfl⟩ | ⟨name, rfl⟩
  · obtain ⟨n, rfl⟩ := exists_integer_of_arithmetic h
    trivial
  · obtain ⟨b, rfl⟩ := exists_bool_of_compare h
    trivial

theorem get?_of_lt {index : Nat} (h : index < table.length) : ∃ f, get? index = some f := by
  refine ⟨table[index], ?_⟩
  unfold get?
  rw [if_neg (by omega), Int.toNat_natCast]
  exact List.getElem?_eq_getElem h

theorem get?_of_find? {name : Bytes} {index : Nat} (h : find? name = some index) :
    ∃ f, get? index = some f := by
  have hlt := (List.idxOf?_eq_some_iff.1 h).1
  rw [names, List.length_map] at hlt
  exact get?_of_lt hlt

end Builtin

namespace Stored

mutual

theorem extends_toValue : ∀ (names : Interner) (s : Stored), names.Extends (toValue names s).2
  | names, nil | names, bool _ | names, integer _ | names, string _ | names, unlisted _ =>
    Interner.Extends.refl names
  | names, keyword name => Interner.extends_intern names name
  | names, function name => by
    rw [toValue]
    split <;> exact Interner.Extends.refl names
  | names, vector elems => extends_toValues names elems

theorem extends_toValues : ∀ (names : Interner) (ss : List Stored),
    names.Extends (toValues names ss).2
  | names, [] => Interner.Extends.refl names
  | names, s :: ss => by
    have h := extends_toValue names s
    rw [toValues]
    split
    · rename_i hs
      rwa [hs] at h
    · rename_i hs
      rw [hs] at h
      exact h.trans (extends_toValues _ ss)

end

mutual

/-- A stored value that is understood gives a known value. -/
theorem known_toValue :
    ∀ {names : Interner} {s : Stored} {v : Value}, (toValue names s).1 = .ok v →
      v.Known (toValue names s).2
  | _, nil, _, rfl | _, bool _, _, rfl | _, integer _, _, rfl | _, string _, _, rfl => trivial
  | names, keyword name, _, rfl => Interner.lt_size_of_find? (Interner.find?_intern names name)
  | names, function name, v, h => by
    rw [toValue] at h ⊢
    cases hfind : Builtin.find? name with
    | none =>
      rw [hfind] at h
      cases h
    | some index =>
      rw [hfind] at h
      cases h
      exact Builtin.get?_of_find? hfind
  | names, vector elems, v, h => by
    rw [toValue] at h ⊢
    cases hvs : (toValues names elems).1 with
    | error e =>
      rw [hvs] at h
      cases h
    | ok vs =>
      rw [hvs] at h
      cases h
      exact known_toValues hvs

theorem known_toValues :
    ∀ {names : Interner} {ss : List Stored} {vs : List Value}, (toValues names ss).1 = .ok vs →
      Value.KnownAll (toValues names ss).2 vs
  | _, [], _, rfl => trivial
  | names, s :: ss, vs, h => by
    rw [toValues] at h ⊢
    rcases hs : toValue names s with ⟨r, names'⟩
    rw [hs] at h
    cases r with
    | error e => cases h
    | ok v =>
      have hknown : v.Known names' := by
        have := known_toValue (congrArg Prod.fst hs)
        rwa [hs] at this
      simp only at h ⊢
      cases hvs : (toValues names' ss).1 with
      | error e =>
        rw [hvs] at h
        cases h
      | ok vs' =>
        rw [hvs] at h
        cases h
        exact ⟨hknown.mono (extends_toValues names' ss), known_toValues hvs⟩

end

end Stored

end SpanLisp
