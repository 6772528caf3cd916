import SpanLisp.Proofs.ByName
import SpanLisp.Symbol.Tables

/-!
# Two tables hold the names of one list

`Tables.Holds T t` relates the two tables of words to the list of names: the reverse table is the
list, and the forward table has the place of each name, cut to a word.  Every call keeps this and
answers alike (`Holds.intern`, `Holds.lookup`, `Holds.resolve`), hence a run of calls does
(`Holds.internAll`), however many names there are.  As long as the places fit in a word, each table
undoes the other (`Holds.inverse`).
-/

namespace SpanLisp.Interner

/-! ### New names -/

theorem find?_eq_none_iff {t : Interner} {name : Bytes} : t.find? name = none ↔ name ∉ t.names :=
  List.idxOf?_eq_none_iff

theorem intern_of_find?_none {t : Interner} {name : Bytes} (h : t.find? name = none) :
    t.intern name = (t.size, ⟨t.names ++ [name]⟩) := by
  rw [intern, h]

theorem find?_append_new {t : Interner} {name : Bytes} (h : t.find? name = none) (other : Bytes) :
    (Interner.mk (t.names ++ [name])).find? other =
      if name = other then some t.size else t.find? other := by
  split
  · subst other
    have hfound := find?_intern t name
    rwa [intern_of_find?_none h] at hfound
  · rename_i hne
    unfold find? List.idxOf?
    rw [List.findIdx?_append]
    simp [hne]

/-! ### Runs of interning -/

/-- The symbols given out when names are interned in order. -/
def symbolsFor (t : Interner) : List Bytes → List Symbol
  | [] => []
  | name :: names => (t.intern name).1 :: (t.intern name).2.symbolsFor names

theorem internAll_cons (t : Interner) (name : Bytes) (names : List Bytes) :
    t.internAll (name :: names) = (t.intern name).2.internAll names := rfl

theorem internAll_append (t : Interner) (before after : List Bytes) :
    t.internAll (before ++ after) = (t.internAll before).internAll after :=
  List.foldl_append

theorem symbolsFor_append (t : Interner) (before after : List Bytes) :
    t.symbolsFor (before ++ after) =
      t.symbolsFor before ++ (t.internAll before).symbolsFor after := by
  induction before generalizing t with
  | nil => rfl
  | cons name names ih =>
    rw [List.cons_append, symbolsFor, symbolsFor, ih, internAll_cons, List.cons_append]

/-- Distinct names are listed as they come. -/
theorem internAll_of_nodup {t : Interner} {names : List Bytes} (h : (t.names ++ names).Nodup) :
    t.internAll names = ⟨t.names ++ names⟩ := by
  induction names generalizing t with
  | nil => rw [List.append_nil]; rfl
  | cons name names ih =>
    have hnew : t.find? name = none := by
      rw [find?_eq_none_iff]
      exact fun hmem => (List.nodup_append.1 h).2.2 name hmem name List.mem_cons_self rfl
    rw [List.append_cons] at h ⊢
    rw [internAll_cons, intern_of_find?_none hnew]
    exact ih h

namespace Tables

variable {T : Tables} {t : Interner} {name : Bytes} {sym : UInt32}

/-! ### What a call does to the tables -/

theorem intern_of_some (h : T.forward[name]? = some sym) : (intern name).run T = (sym, T) := by
  simp only [intern, StateT.run_bind, StateT.run_get, pure_bind, h]
  rfl

theorem intern_of_none (h : T.forward[name]? = none) :
    (intern name).run T =
      (.ofNat T.size, ⟨T.forward.insert name (.ofNat T.size), T.reverse.push name⟩) := by
  simp only [intern, StateT.run_bind, StateT.run_get, pure_bind, h]
  rfl

theorem resolve_of_le (h : T.size ≤ sym.toNat) :
    (resolve sym).run T = (.error (.foreignSymbol sym.toNat T.size), T) := by
  simp only [resolve, StateT.run_bind, StateT.run_get, pure_bind, if_pos h]
  rfl

theorem resolve_of_some (h : T.reverse[sym.toNat]? = some name) :
    (resolve sym).run T = (.ok name, T) := by
  have hlt : ¬ T.size ≤ sym.toNat := Nat.not_le_of_lt (Array.getElem?_eq_some_iff.1 h).1
  simp only [resolve, StateT.run_bind, StateT.run_get, pure_bind, if_neg hlt, h]
  rfl

theorem internAll_cons (name : Bytes) (names : List Bytes) (T : Tables) :
    (internAll (name :: names)).run T =
      let first := (intern name).run T
      let rest := (internAll names).run first.2
      (first.1 :: rest.1, rest.2) := by
  rw [internAll, List.mapM_cons]
  rfl

/-! ### Tables and list -/

/-- The tables hold the names of the list: the one has the names in order, the other their places,
cut to words. -/
structure Holds (T : Tables) (t : Interner) : Prop where
  reverse : T.reverse.toList = t.names
  forward : ∀ name : Bytes, T.forward[name]? = (t.find? name).map UInt32.ofNat

theorem holds_empty : empty.Holds Interner.empty := ⟨rfl, fun _ => rfl⟩

theorem Holds.size (h : T.Holds t) : T.size = t.size := by
  rw [Tables.size, Interner.size, ← h.reverse, Array.length_toList]

/-- Interning on the tables is interning on the list. -/
theorem Holds.intern (h : T.Holds t) (name : Bytes) :
    ((intern name).run T).1 = .ofNat (t.intern name).1 ∧
      ((intern name).run T).2.Holds (t.intern name).2 := by
  have hforward := h.forward name
  cases hfind : t.find? name with
  | some sym =>
    rw [hfind] at hforward
    rw [intern_of_some hforward, intern_of_find? hfind]
    exact ⟨rfl, h⟩
  | none =>
    rw [hfind] at hforward
    rw [intern_of_none hforward, intern_of_find?_none hfind, h.size]
    refine ⟨rfl, ?_, fun other => ?_⟩
    · rw [Array.toList_push, h.reverse]
    · rw [Std.ExtTreeMap.getElem?_insert, find?_append_new hfind, h.forward]
      simp only [Std.LawfulEqCmp.compare_eq_iff_eq]
      split <;> rfl

/-- Looking a name up changes nothing. -/
theorem Holds.lookup (h : T.Holds t) (name : Bytes) :
    (lookup name).run T = ((t.find? name).map .ofNat, T) := by
  rw [← h.forward]
  rfl

/-- Resolving a symbol changes nothing and never reads beyond the table. -/
theorem Holds.resolve (h : T.Holds t) (sym : UInt32) :
    (resolve sym).run T = (t.resolve sym.toNat, T) := by
  have hname : T.reverse[sym.toNat]? = t.name? sym.toNat := by
    rw [name?, ← h.reverse, Array.getElem?_toList]
  rw [Interner.resolve, ← h.size, ← hname]
  cases hget : T.reverse[sym.toNat]? with
  | none => exact resolve_of_le (Array.getElem?_eq_none_iff.1 hget)
  | some name => exact resolve_of_some hget

theorem Holds.internAll (h : T.Holds t) (names : List Bytes) :
    ((internAll names).run T).1 = (t.symbolsFor names).map .ofNat ∧
      ((internAll names).run T).2.Holds (t.internAll names) := by
  induction names generalizing T t with
  | nil => exact ⟨rfl, h⟩
  | cons name names ih =>
    obtain ⟨hsym, hnext⟩ := h.intern name
    obtain ⟨hsyms, hlast⟩ := ih hnext
    rw [internAll_cons]
    exact ⟨congrArg₂ List.cons hsym hsyms, hlast⟩

/-- New tables give out the symbols that a new interner does, cut to words, and hold its names. -/
theorem holds_ofCalls (calls : List Bytes) :
    (ofCalls calls).1 = (Interner.empty.symbolsFor calls).map .ofNat ∧
      (ofCalls calls).2.Holds (Interner.empty.internAll calls) :=
  holds_empty.internAll calls

/-! ### Words -/

/-- Each table undoes the other. -/
def Inverse (T : Tables) : Prop := ∀ (name : Bytes) (sym : UInt32),
  T.forward[name]? = some sym ↔ T.reverse[sym.toNat]? = some name

/-- As long as the places fit in words, a name is found under a word exactly if its place is that
word. -/
theorem Holds.forward_eq_some_iff (h : T.Holds t) (hfew : t.size ≤ 4294967296) :
    T.forward[name]? = some sym ↔ t.find? name = some sym.toNat := by
  rw [h.forward, Option.map_eq_some_iff]
  constructor
  · rintro ⟨n, hfind, rfl⟩
    have hlt := Nat.lt_of_lt_of_le (lt_size_of_find? hfind) hfew
    rwa [UInt32.toNat_ofNat_of_lt' hlt]
  · intro hfind
    exact ⟨sym.toNat, hfind, UInt32.ofNat_toNat⟩

theorem Holds.inverse (h : T.Holds t) (hnodup : t.names.Nodup) (hfew : t.size ≤ 4294967296) :
    T.Inverse := by
  intro name sym
  rw [h.forward_eq_some_iff hfew, find?_eq_some_iff hnodup, name?, ← h.reverse,
    Array.getElem?_toList]

end Tables

end SpanLisp.Interner
