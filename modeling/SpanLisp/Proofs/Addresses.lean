import SpanLisp.Proofs.Grammar

/-!
# Addresses of nodes

The address of a node says which element to follow at every sequence on the way down to it, so its
length is the number of sequences around the node (`Expr.at?`).  Every node has an address
(`exists_at?_of_mem_nodes`).  The tokens of the node stand together among those of the tree, and
the tokens before them leave open as many delimiters as the address is long (`split_at?`).
-/

namespace SpanLisp

/-! ### The delimiters of trees -/

theorem delimiters_append (us vs : List Token) :
    delimiters (us ++ vs) = delimiters us ++ delimiters vs := by
  simp [delimiters]

/-- Blanks are no delimiters. -/
theorem delimiters_filter (ts : List Token) :
    delimiters (ts.filter (·.kind ≠ .blank)) = delimiters ts := by
  induction ts with
  | nil => rfl
  | cons t ts ih =>
    by_cases hk : t.kind = .blank
    · rw [List.filter_cons_of_neg (by simpa using hk), ih, Parser.delimiters_cons, hk]
      rfl
    · rw [List.filter_cons_of_pos (by simpa using hk), Parser.delimiters_cons, ih,
        Parser.delimiters_cons]

/-- A token that is kept when others are left out, and what stands around it. -/
theorem Token.split_filter {p : Token → Bool} {ts us vs : List Token} {t : Token}
    (h : ts.filter p = us ++ t :: vs) :
    ∃ us' vs', ts = us' ++ t :: vs' ∧ us'.filter p = us ∧ vs'.filter p = vs := by
  obtain ⟨front, back, rfl, rfl, hback⟩ := List.filter_eq_append_iff.1 h
  obtain ⟨gap, rest, rfl, hgap, -, hrest⟩ := List.filter_eq_cons_iff.1 hback
  refine ⟨front ++ gap, rest, by rw [List.append_assoc], ?_, hrest⟩
  rw [List.filter_append, List.filter_eq_nil_iff.2 hgap, List.append_nil]

namespace Expr

theorem delimiters_leafToken (source : Bytes) {kind : Token.Kind} (h : kind.isDelimiter = false)
    (s : Span) : delimiters [leafToken source kind s] = [] := by
  rw [Parser.delimiters_cons, leafToken, h]
  rfl

theorem delimiters_between (d : Delim) (s : Span) (ts : List Token) :
    delimiters (openToken d s.lo :: ts ++ [closeToken d s.hi]) =
      .opening d :: delimiters ts ++ [.closing d] := by
  rw [delimiters_append]
  rfl

mutual

/-- A tree closes what it opens. -/
theorem raises_tokens (source : Bytes) : ∀ e : Expr, Raises 0 (delimiters (e.tokens source))
  | list s xs | vector s xs => by
    rw [tokens, delimiters_between]
    exact (raises_tokensAll source xs).between _
  | integer s _ | string s | bool s _ | keyword s _ | nil s | operator s _ | symbol s _ => by
    rw [tokens, delimiters_leafToken source rfl]
    exact raises_nil
  | unlisted .. => raises_nil

theorem raises_tokensAll (source : Bytes) :
    ∀ es : List Expr, Raises 0 (delimiters (tokensAll source es))
  | [] => raises_nil
  | x :: xs => by
    rw [tokensAll, delimiters_append]
    exact (raises_tokens source x).append (raises_tokensAll source xs)

end

/-! ### Addresses -/

/-- The elements of a sequence; other nodes have none. -/
def elems : Expr → List Expr
  | list _ xs | vector _ xs => xs
  | _ => []

/-- The node that one gets to from the root by the given elements. -/
def at? : Expr → List Nat → Option Expr
  | e, [] => some e
  | e, i :: addr => e.elems[i]?.bind fun x => x.at? addr

theorem at?_nil (e : Expr) : e.at? [] = some e := rfl

theorem at?_cons_iff {e n : Expr} {i : Nat} {addr : List Nat} :
    e.at? (i :: addr) = some n ↔ ∃ x, e.elems[i]? = some x ∧ x.at? addr = some n :=
  Option.bind_eq_some_iff

theorem at?_append {n : Expr} : ∀ {addr addr' : List Nat} {e : Expr},
    e.at? (addr ++ addr') = some n ↔ ∃ x, e.at? addr = some x ∧ x.at? addr' = some n
  | [], addr', e => by simp [at?_nil]
  | i :: addr, addr', e => by
    simp only [List.cons_append, at?_cons_iff, at?_append]
    constructor
    · rintro ⟨x, hx, y, hy, hn⟩
      exact ⟨y, ⟨x, hx, hy⟩, hn⟩
    · rintro ⟨y, ⟨x, hx, hy⟩, hn⟩
      exact ⟨x, hx, y, hy, hn⟩

mutual

theorem exists_at?_of_mem_nodes {n : Expr} :
    ∀ {e : Expr}, n ∈ e.nodes → ∃ addr, e.at? addr = some n
  | list s xs, h | vector s xs, h => by
    rcases List.mem_cons.1 h with rfl | h
    · exact ⟨[], rfl⟩
    · obtain ⟨i, x, addr, hx, hn⟩ := exists_at?_of_mem_nodesAll h
      exact ⟨i :: addr, at?_cons_iff.2 ⟨x, hx, hn⟩⟩
  | integer .., h | string .., h | bool .., h | keyword .., h | nil .., h | operator .., h
  | symbol .., h | unlisted .., h => by
    rw [nodes, List.mem_singleton] at h
    · exact ⟨[], by rw [h]; rfl⟩
    all_goals simp

theorem exists_at?_of_mem_nodesAll {n : Expr} :
    ∀ {es : List Expr}, n ∈ nodesAll es →
      ∃ (i : Nat) (x : Expr) (addr : List Nat), es[i]? = some x ∧ x.at? addr = some n
  | x :: xs, h => by
    rcases List.mem_append.1 h with h | h
    · obtain ⟨addr, hn⟩ := exists_at?_of_mem_nodes h
      exact ⟨0, x, addr, rfl, hn⟩
    · obtain ⟨i, y, addr, hy, hn⟩ := exists_at?_of_mem_nodesAll h
      exact ⟨i + 1, y, addr, hy, hn⟩

end

theorem FaithfulAll.of_mem {source : Bytes} {names : Interner} {x : Expr} :
    ∀ {head : Bool} {es : List Expr}, FaithfulAll source names head es → x ∈ es →
      ∃ head', Faithful source names head' x
  | head, y :: ys, ⟨hy, hys⟩, hx => by
    rcases List.mem_cons.1 hx with rfl | hx
    · exact ⟨head, hy⟩
    · exact hys.of_mem hx

theorem Faithful.elems {source : Bytes} {names : Interner} {head : Bool} {e x : Expr}
    (h : Faithful source names head e) (hx : x ∈ e.elems) :
    ∃ head', Faithful source names head' x := by
  cases e with
  | list s xs => exact FaithfulAll.of_mem h hx
  | vector s xs => exact FaithfulAll.of_mem h hx
  | integer | string | bool | keyword | nil | operator | symbol | unlisted => cases hx

theorem Faithful.at? {source : Bytes} {names : Interner} {n : Expr} :
    ∀ {addr : List Nat} {head : Bool} {e : Expr}, Faithful source names head e →
      e.at? addr = some n → ∃ head', Faithful source names head' n
  | [], head, e, h, hn => by
    cases hn
    exact ⟨head, h⟩
  | i :: addr, head, e, h, hn => by
    obtain ⟨x, hx, hn⟩ := at?_cons_iff.1 hn
    obtain ⟨head', hx⟩ := h.elems (List.mem_of_getElem? hx)
    exact hx.at? hn

/-! ### The tokens of a node -/

/-- Is the node a list or a vector? -/
def isSequence : Expr → Bool
  | list .. | vector .. => true
  | _ => false

theorem isSequence_of_elems {e x : Expr} (h : x ∈ e.elems) : e.isSequence = true := by
  cases e with
  | list s xs => rfl
  | vector s xs => rfl
  | integer | string | bool | keyword | nil | operator | symbol | unlisted => cases h

theorem tokens_of_isSequence (source : Bytes) {e : Expr} (h : e.isSequence = true) :
    ∃ d, e.tokens source =
      openToken d e.span.lo :: tokensAll source e.elems ++ [closeToken d e.span.hi] := by
  cases e with
  | list s xs => exact ⟨.paren, rfl⟩
  | vector s xs => exact ⟨.bracket, rfl⟩
  | integer | string | bool | keyword | nil | operator | symbol | unlisted => cases h

theorem tokens_of_not_isSequence {source : Bytes} {names : Interner} {head : Bool} {e : Expr}
    (hf : Faithful source names head e) (h : e.isSequence = false) :
    ∃ kind, kind ≠ .blank ∧ kind.isDelimiter = false ∧
      e.tokens source = [leafToken source kind e.span] := by
  cases e with
  | list s xs => cases h
  | vector s xs => cases h
  | unlisted s code => exact hf.elim
  | integer | string | bool | keyword | nil | operator | symbol =>
    exact ⟨_, by decide, rfl, rfl⟩

/-- The tokens of an element stand together, after those of the elements before it. -/
theorem split_tokensAll (source : Bytes) {es : List Expr} {x : Expr} (h : x ∈ es) :
    ∃ us vs, tokensAll source es = us ++ x.tokens source ++ vs ∧ Raises 0 (delimiters us) := by
  obtain ⟨before, after, rfl⟩ := List.append_of_mem h
  refine ⟨tokensAll source before, tokensAll source after, ?_, raises_tokensAll source before⟩
  rw [tokensAll_append, tokensAll, List.append_assoc]

/-- The tokens of a node stand together, and those before them leave open one delimiter for every
sequence around the node. -/
theorem split_at? (source : Bytes) {n : Expr} : ∀ {addr : List Nat} {e : Expr},
    e.at? addr = some n →
      ∃ us vs, e.tokens source = us ++ n.tokens source ++ vs ∧
        Raises addr.length (delimiters us)
  | [], e, h => by
    cases h
    exact ⟨[], [], by simp, raises_nil⟩
  | i :: addr, e, h => by
    obtain ⟨x, hx, hn⟩ := at?_cons_iff.1 h
    have hmem := List.mem_of_getElem? hx
    obtain ⟨us, vs, hinner, hraise⟩ := split_at? source hn
    obtain ⟨before, after, houter, hbefore⟩ := split_tokensAll source hmem
    obtain ⟨d, htokens⟩ := tokens_of_isSequence source (isSequence_of_elems hmem)
    refine ⟨openToken d e.span.lo :: before ++ us, vs ++ after ++ [closeToken d e.span.hi], ?_, ?_⟩
    · rw [htokens, houter, hinner]
      simp only [List.cons_append, List.append_assoc]
    · have hlevel := ((raises_opening d).append hbefore).append hraise
      rw [List.length_cons, Nat.add_comm addr.length 1, delimiters_append]
      exact hlevel

end Expr

/-! ### The nodes of a text -/

namespace Parser

variable {limit : Nat} {text : Bytes} {names names' : Interner} {es : List Expr}

theorem shallow_of_parse (h : parse .script limit text names = (.ok es, names')) :
    Shallow limit (delimiters (tokens text).1) := by
  obtain ⟨-, st', hsteps, hpending, -, -⟩ := parse_ok_iff.1 h
  exact (matches_iff.1 (steps_iff_matches.1 ⟨st', hsteps, hpending⟩).1).2

/-- The tokens of a node among those of the text. -/
theorem split_of_parse (h : parse .script limit text names = (.ok es, names')) {e n : Expr}
    (he : e ∈ es) {addr : List Nat} (hn : e.at? addr = some n) :
    ∃ us vs, (tokens text).1.filter (·.kind ≠ .blank) = us ++ n.tokens text ++ vs ∧
      Raises addr.length (delimiters us) := by
  obtain ⟨before, after, houter, hbefore⟩ := Expr.split_tokensAll text he
  obtain ⟨us, vs, hinner, hraise⟩ := Expr.split_at? text hn
  refine ⟨before ++ us, vs ++ after, ?_, ?_⟩
  · rw [← (parse_ok h).1, houter, hinner]
    simp only [List.append_assoc]
  · rw [delimiters_append]
    simpa using hbefore.append hraise

end Parser

end SpanLisp
