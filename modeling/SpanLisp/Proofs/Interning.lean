import SpanLisp.Symbol

/-!
# Names keep their symbols

An interner only grows at its end: `Interner.Extends t u` says that `u` knows the names of `t` under
the same symbols.  The symbol that `intern` gives out is found again in every extension
(`Extends.find?`), and interning a known name changes nothing (`intern_of_find?`).
-/

namespace SpanLisp.Interner

/-- The second interner knows every name of the first under the same symbol, and no name twice
unless the first does. -/
structure Extends (t u : Interner) : Prop where
  /-- The names of the first keep their places. -/
  keeps : t.names <+: u.names
  /-- Distinct names stay distinct. -/
  nodup : t.names.Nodup → u.names.Nodup

theorem Extends.refl (t : Interner) : t.Extends t := ⟨List.prefix_rfl, id⟩

theorem Extends.trans {t u v : Interner} (h₁ : t.Extends u) (h₂ : u.Extends v) : t.Extends v :=
  ⟨h₁.keeps.trans h₂.keeps, fun h => h₂.nodup (h₁.nodup h)⟩

theorem Extends.size_le {t u : Interner} (h : t.Extends u) : t.size ≤ u.size :=
  h.keeps.length_le

theorem Extends.find? {t u : Interner} (h : t.Extends u) {name : Bytes} {sym : Symbol}
    (hf : t.find? name = some sym) : u.find? name = some sym := by
  obtain ⟨more, hu⟩ := h.keeps
  unfold Interner.find? List.idxOf? at hf ⊢
  rw [← hu, List.findIdx?_append, hf]
  rfl

theorem Extends.name? {t u : Interner} (h : t.Extends u) {sym : Symbol} {name : Bytes}
    (hn : t.name? sym = some name) : u.name? sym = some name := by
  obtain ⟨more, hu⟩ := h.keeps
  unfold Interner.name? at hn ⊢
  rw [← hu, List.getElem?_append_left (List.getElem?_eq_some_iff.1 hn).1]
  exact hn

/-! ### Symbols and names -/

theorem name?_of_find? {t : Interner} {name : Bytes} {sym : Symbol} (h : t.find? name = some sym) :
    t.name? sym = some name := by
  obtain ⟨hlt, hname, -⟩ := List.idxOf?_eq_some_iff.1 h
  exact List.getElem?_eq_some_iff.2 ⟨hlt, hname⟩

theorem lt_size_of_find? {t : Interner} {name : Bytes} {sym : Symbol}
    (h : t.find? name = some sym) : sym < t.size :=
  (List.idxOf?_eq_some_iff.1 h).1

theorem resolve_of_lt {t : Interner} {sym : Symbol} (h : sym < t.size) :
    ∃ name, t.resolve sym = .ok name := by
  refine ⟨t.names[sym], ?_⟩
  unfold resolve Interner.name?
  rw [List.getElem?_eq_getElem h]

/-! ### Interning -/

theorem intern_of_find? {t : Interner} {name : Bytes} {sym : Symbol} (h : t.find? name = some sym) :
    t.intern name = (sym, t) := by
  unfold intern
  rw [h]

theorem nodup_intern {t : Interner} (h : t.names.Nodup) (name : Bytes) :
    (t.intern name).2.names.Nodup := by
  unfold intern
  split
  · exact h
  · rename_i hnone
    have hmem : name ∉ t.names := List.idxOf?_eq_none_iff.1 hnone
    refine List.nodup_append.2 ⟨h, by simp, ?_⟩
    rintro a ha b hb rfl
    rw [List.mem_singleton] at hb
    exact hmem (hb ▸ ha)

theorem extends_intern (t : Interner) (name : Bytes) : t.Extends (t.intern name).2 := by
  refine ⟨?_, fun h => nodup_intern h name⟩
  unfold intern
  split
  · exact List.prefix_rfl
  · exact List.prefix_append _ _

theorem find?_intern (t : Interner) (name : Bytes) :
    (t.intern name).2.find? name = some (t.intern name).1 := by
  unfold intern
  split
  · assumption
  · rename_i h
    unfold Interner.find? List.idxOf? at h ⊢
    rw [List.findIdx?_append, h]
    simp [size]

end SpanLisp.Interner
