import Mathlib.Data.Finset.Card
import SpanLisp.Proofs.TwoTables

/-!
# Names are numbered by first occurrence

On a new interner the symbol of a name is the number of distinct names before its first occurrence
(`Interner.ordinal`, `find?_internAll`), so the symbols in use are the numbers below the size of
the table (`mem_symbolsFor_iff`).  As long as these numbers fit in words, the two tables of the
interner number the names in the same way, and symbols and names determine each other
(`Tables.Numbered`).  What a run has given out, no later call changes (`Tables.Kept`).
-/

namespace SpanLisp.Interner

/-- The number of distinct names before the first occurrence of a name. -/
def ordinal (calls : List Bytes) (name : Bytes) : Nat :=
  (calls.take (calls.idxOf name)).toFinset.card

variable {t : Interner} {name : Bytes} {sym : Symbol} {calls : List Bytes}

/-! ### Runs of interning -/

theorem extends_internAll (t : Interner) (calls : List Bytes) : t.Extends (t.internAll calls) := by
  induction calls generalizing t with
  | nil => exact .refl t
  | cons name names ih => exact (extends_intern t name).trans (ih _)

theorem nodup_internAll (calls : List Bytes) : (empty.internAll calls).names.Nodup :=
  (extends_internAll empty calls).nodup List.nodup_nil

theorem mem_names_of_find? (h : t.find? name = some sym) : name ∈ t.names :=
  List.mem_of_getElem? (name?_of_find? h)

theorem mem_names_intern (t : Interner) (name other : Bytes) :
    other ∈ (t.intern name).2.names ↔ other = name ∨ other ∈ t.names := by
  cases h : t.find? name with
  | some sym =>
    rw [intern_of_find? h]
    refine ⟨.inr, ?_⟩
    rintro (rfl | hother)
    · exact mem_names_of_find? h
    · exact hother
  | none =>
    rw [intern_of_find?_none h]
    simp [or_comm]

theorem mem_names_internAll (t : Interner) (calls : List Bytes) (other : Bytes) :
    other ∈ (t.internAll calls).names ↔ other ∈ calls ∨ other ∈ t.names := by
  induction calls generalizing t with
  | nil => simp [internAll]
  | cons name names ih =>
    rw [internAll_cons, ih, mem_names_intern, List.mem_cons, or_left_comm, or_assoc]

/-- A new interner knows, after a run, the names of the run. -/
theorem mem_names_iff : name ∈ (empty.internAll calls).names ↔ name ∈ calls := by
  rw [mem_names_internAll]
  exact or_iff_left List.not_mem_nil

theorem size_internAll (calls : List Bytes) :
    (empty.internAll calls).size = calls.toFinset.card := by
  have hset : (empty.internAll calls).names.toFinset = calls.toFinset := by
    ext name
    rw [List.mem_toFinset, List.mem_toFinset, mem_names_iff]
  rw [size, ← hset, List.toFinset_card_of_nodup (nodup_internAll calls)]

/-! ### Symbols -/

/-- The symbols given out are those that the names have in the end. -/
theorem map_find?_internAll (t : Interner) (calls : List Bytes) :
    calls.map (t.internAll calls).find? = (t.symbolsFor calls).map some := by
  induction calls generalizing t with
  | nil => rfl
  | cons name names ih =>
    have hname := (extends_internAll (t.intern name).2 names).find? (find?_intern t name)
    rw [internAll_cons, symbolsFor, List.map_cons, List.map_cons, ih, hname]

theorem ordinal_append {before : List Bytes} (h : name ∉ before) (after : List Bytes) :
    ordinal (before ++ name :: after) name = before.toFinset.card := by
  rw [ordinal, List.idxOf_append_of_notMem h, List.idxOf_cons_self, Nat.add_zero, List.take_left]

/-- The symbol of a name is the number of distinct names before its first occurrence. -/
theorem find?_internAll (h : name ∈ calls) :
    (empty.internAll calls).find? name = some (ordinal calls name) := by
  obtain ⟨before, after, rfl, hnew⟩ := List.eq_append_cons_of_mem h
  -- at its first occurrence the name is not known, so it gets the next number
  have hnone : (empty.internAll before).find? name = none := by
    rw [find?_eq_none_iff, mem_names_iff]
    exact hnew
  have hfirst : ((empty.internAll before).intern name).1 = before.toFinset.card := by
    rw [intern_of_find?_none hnone]
    exact size_internAll before
  rw [ordinal_append hnew, internAll_append, internAll_cons, ← hfirst]
  exact (extends_internAll _ after).find? (find?_intern _ name)

theorem find?_internAll_iff :
    (empty.internAll calls).find? name = some sym ↔ name ∈ calls ∧ ordinal calls name = sym := by
  constructor
  · intro h
    have hmem : name ∈ calls := mem_names_iff.1 (mem_names_of_find? h)
    exact ⟨hmem, Option.some.inj ((find?_internAll hmem).symm.trans h)⟩
  · rintro ⟨hmem, rfl⟩
    exact find?_internAll hmem

theorem symbolsFor_empty (calls : List Bytes) :
    empty.symbolsFor calls = calls.map (ordinal calls) := by
  have hsome : (empty.symbolsFor calls).map some = (calls.map (ordinal calls)).map some := by
    rw [← map_find?_internAll, List.map_map]
    exact List.map_congr_left fun name h => find?_internAll h
  exact List.map_injective_iff.2 (Option.some_injective _) hsome

/-- The symbols in use are the numbers below the size of the table. -/
theorem mem_symbolsFor_iff :
    sym ∈ empty.symbolsFor calls ↔ sym < (empty.internAll calls).size := by
  rw [symbolsFor_empty, List.mem_map]
  constructor
  · rintro ⟨name, hmem, rfl⟩
    exact lt_size_of_find? (find?_internAll hmem)
  · intro hlt
    have hname := name?_of_lt hlt
    exact ⟨_, find?_internAll_iff.1 ((find?_eq_some_iff (nodup_internAll calls)).2 hname)⟩

/-! ### Spelling symbols -/

theorem resolve_eq_ok_iff : t.resolve sym = .ok name ↔ t.name? sym = some name := by
  rw [resolve]
  cases t.name? sym <;> simp

theorem resolve_error_iff : (∃ d, t.resolve sym = .error d) ↔ t.size ≤ sym := by
  constructor
  · rintro ⟨d, hd⟩
    by_contra hlt
    obtain ⟨name, hname⟩ := resolve_of_lt (Nat.lt_of_not_le hlt)
    rw [hname] at hd
    cases hd
  · intro hle
    have hnone : t.name? sym = none := List.getElem?_eq_none hle
    exact ⟨.foreignSymbol sym t.size, by rw [resolve, hnone]⟩

namespace Tables

/-! ### The bijection -/

/-- The symbols given out by a run of interning, and the tables after it, number the names. -/
structure Numbered (calls : List Bytes) (symbols : List UInt32) (T : Tables) : Prop where
  /-- Each call gets the number of distinct names before the first occurrence of its name. -/
  symbols_eq : symbols.map UInt32.toNat = calls.map (ordinal calls)
  /-- Two calls get the same symbol exactly for the same name. -/
  symbol_eq_iff : ∀ (i j : Nat) (a b : Bytes) (x y : UInt32),
    calls[i]? = some a → calls[j]? = some b → symbols[i]? = some x → symbols[j]? = some y →
      (x = y ↔ a = b)
  /-- The symbols in use are the numbers below the size of the tables. -/
  mem_iff : ∀ sym : UInt32, sym ∈ symbols ↔ sym.toNat < T.size
  /-- There are as many as there are distinct names. -/
  size_eq : T.size = calls.toFinset.card
  /-- Each table undoes the other. -/
  inverse : T.Inverse
  /-- Resolving undoes interning. -/
  resolve_intern : ∀ (i : Nat) (name : Bytes) (sym : UInt32), calls[i]? = some name →
    symbols[i]? = some sym → (resolve sym).run T = (.ok name, T)
  /-- Interning undoes resolving. -/
  intern_resolve : ∀ (sym : UInt32) (name : Bytes), ((resolve sym).run T).1 = .ok name →
    (intern name).run T = (sym, T)
  /-- A known name is found under the symbol that interning it again gives. -/
  lookup_of_mem : ∀ name ∈ calls, (lookup name).run T = (some ((intern name).run T).1, T)
  /-- No other name is found, and looking for it changes nothing. -/
  lookup_of_not_mem : ∀ name ∉ calls, (lookup name).run T = (none, T)
  /-- Resolving is a defect exactly for symbols that were not given out. -/
  resolve_error_iff : ∀ sym : UInt32,
    (∃ d, ((resolve sym).run T).1 = .error d) ↔ T.size ≤ sym.toNat
  /-- Resolving changes nothing, defect or not. -/
  resolve_unchanged : ∀ sym : UInt32, ((resolve sym).run T).2 = T

/-- In the later tables every name has the symbol, and every symbol the name, that it had before. -/
structure Kept (earlier later : Tables) : Prop where
  lookup : ∀ (name : Bytes) (sym : UInt32), ((lookup name).run earlier).1 = some sym →
    ((lookup name).run later).1 = some sym
  intern : ∀ (name : Bytes) (sym : UInt32), ((Tables.lookup name).run earlier).1 = some sym →
    (intern name).run later = (sym, later)
  resolve : ∀ (sym : UInt32) (name : Bytes), ((resolve sym).run earlier).1 = .ok name →
    ((resolve sym).run later).1 = .ok name

variable {T U : Tables} {u : Interner}

theorem Holds.kept (hT : T.Holds t) (hU : U.Holds u) (h : t.Extends u) : Kept T U := by
  have hforward {name : Bytes} {sym : UInt32} (hsym : T.forward[name]? = some sym) :
      U.forward[name]? = some sym := by
    rw [hT.forward, Option.map_eq_some_iff] at hsym
    obtain ⟨n, hfind, rfl⟩ := hsym
    rw [hU.forward, h.find? hfind]
    rfl
  refine ⟨fun name sym hsym => hforward hsym, fun name sym hsym => intern_of_some (hforward hsym),
    fun sym name hsym => ?_⟩
  rw [hT.resolve, resolve_eq_ok_iff] at hsym
  rw [hU.resolve, resolve_eq_ok_iff]
  exact h.name? hsym

/-- While the distinct names are few, the words given out are the numbers of the names. -/
theorem symbols_ofCalls (hfew : calls.toFinset.card < 4294967296) :
    (ofCalls calls).1.map UInt32.toNat = calls.map (ordinal calls) := by
  rw [(holds_ofCalls calls).1, symbolsFor_empty, List.map_map, List.map_map]
  refine List.map_congr_left fun name hmem => ?_
  have hlt := lt_size_of_find? (find?_internAll hmem)
  rw [size_internAll] at hlt
  exact UInt32.toNat_ofNat_of_lt' (Nat.lt_trans hlt hfew)

/-- Each call gets the symbol that its name has in the end. -/
theorem forward_of_symbols (hfew : calls.toFinset.card < 4294967296) {i : Nat} {name : Bytes}
    {sym : UInt32} (hname : calls[i]? = some name) (hsym : (ofCalls calls).1[i]? = some sym) :
    (ofCalls calls).2.forward[name]? = some sym := by
  have hnumber := congrArg (·[i]?) (symbols_ofCalls hfew)
  simp only [List.getElem?_map, hname, hsym, Option.map_some, Option.some.injEq] at hnumber
  rw [(holds_ofCalls calls).2.forward_eq_some_iff (size_internAll calls ▸ hfew.le), hnumber]
  exact find?_internAll (List.mem_of_getElem? hname)

theorem mem_symbols_ofCalls_iff (hfew : calls.toFinset.card < 4294967296) {sym : UInt32} :
    sym ∈ (ofCalls calls).1 ↔ sym.toNat < (ofCalls calls).2.size := by
  rw [(holds_ofCalls calls).2.size, ← mem_symbolsFor_iff, symbolsFor_empty,
    ← symbols_ofCalls hfew]
  exact (List.mem_map_of_injective fun _ _ => UInt32.toNat_inj.1).symm

theorem numbered_ofCalls (hfew : calls.toFinset.card < 4294967296) :
    Numbered calls (ofCalls calls).1 (ofCalls calls).2 := by
  have hholds := (holds_ofCalls calls).2
  have hsize := size_internAll calls
  have hinverse := hholds.inverse (nodup_internAll calls) (hsize ▸ hfew.le)
  refine ⟨symbols_ofCalls hfew, ?_, fun _ => mem_symbols_ofCalls_iff hfew, hholds.size.trans hsize,
    hinverse, ?_, ?_, ?_, ?_, ?_, ?_⟩
  · intro i j a b x y hi hj hx hy
    have ha := forward_of_symbols hfew hi hx
    have hb := forward_of_symbols hfew hj hy
    constructor
    · rintro rfl
      exact Option.some.inj (((hinverse a x).1 ha).symm.trans ((hinverse b x).1 hb))
    · rintro rfl
      exact Option.some.inj (ha.symm.trans hb)
  · intro i name sym hi hsym
    exact resolve_of_some ((hinverse name sym).1 (forward_of_symbols hfew hi hsym))
  · intro sym name hname
    rw [hholds.resolve, resolve_eq_ok_iff, ← find?_eq_some_iff (nodup_internAll calls),
      ← hholds.forward_eq_some_iff (hsize ▸ hfew.le)] at hname
    exact intern_of_some hname
  · intro name hmem
    have hfind := find?_internAll hmem
    rw [hholds.lookup, (hholds.intern name).1, intern_of_find? hfind, hfind]
    rfl
  · intro name hmem
    have hnone : (Interner.empty.internAll calls).find? name = none := by
      rw [find?_eq_none_iff, mem_names_iff]
      exact hmem
    rw [hholds.lookup, hnone]
    rfl
  · intro sym
    rw [hholds.resolve, hholds.size]
    exact Interner.resolve_error_iff
  · intro sym
    rw [hholds.resolve]

/-- After every step of a run of interning on new tables, symbols and names determine each other,
and the rest of the run changes none of it.  The tables hold the names that an interner has after
the same run. -/
theorem interning_is_stable_bijection (before after : List Bytes)
    (hfew : (before ++ after).toFinset.card < 4294967296) :
    Numbered before (ofCalls before).1 (ofCalls before).2 ∧
      (ofCalls before).1 <+: (ofCalls (before ++ after)).1 ∧
      Kept (ofCalls before).2 (ofCalls (before ++ after)).2 ∧
      (ofCalls before).2.Holds (Interner.empty.internAll before) := by
  have hsubset : before.toFinset ⊆ (before ++ after).toFinset := by
    rw [List.toFinset_append]
    exact Finset.subset_union_left
  obtain ⟨hfirst, hholds⟩ := holds_ofCalls before
  obtain ⟨hwhole, hholds'⟩ := holds_ofCalls (before ++ after)
  refine ⟨numbered_ofCalls (Nat.lt_of_le_of_lt (Finset.card_le_card hsubset) hfew), ?_, ?_, hholds⟩
  · rw [hfirst, hwhole, symbolsFor_append, List.map_append]
    exact List.prefix_append _ _
  · refine hholds.kept hholds' ?_
    rw [internAll_append]
    exact extends_internAll _ after

/-- A name that comes twice, the empty name and a byte that is no UTF-8, each of which comes again
in the rest of the run. -/
theorem interning_is_stable_bijection_repeated :
    let before : List Bytes := [utf8 "b", [], utf8 "b", [0xff]]
    let after : List Bytes := [[], utf8 "a", [0xff], utf8 "b"]
    (before ++ after).toFinset.card < 4294967296 ∧
      Numbered before (ofCalls before).1 (ofCalls before).2 ∧
      (ofCalls before).1 <+: (ofCalls (before ++ after)).1 ∧
      Kept (ofCalls before).2 (ofCalls (before ++ after)).2 ∧
      (ofCalls before).2.Holds (Interner.empty.internAll before) := by
  intro before after
  have hfew : (before ++ after).toFinset.card < 4294967296 :=
    Nat.lt_of_le_of_lt (List.toFinset_card_le _) (by decide)
  exact ⟨hfew, interning_is_stable_bijection before after hfew⟩

end Tables

end SpanLisp.Interner
