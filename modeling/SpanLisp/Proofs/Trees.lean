import SpanLisp.Expr.Printer
import SpanLisp.Proofs.Interning
import SpanLisp.Proofs.Lexemes

/-!
# Syntax trees and their tokens

A syntax tree determines the tokens it was read from (`Expr.tokens`): an opening delimiter, the
tokens of the elements and a closing delimiter for a sequence, and one token for a leaf.
`Expr.Faithful` says that every leaf is what the bytes of its span dictate, and that operators stand
exactly at the heads of lists.  Where the tokens of a tree fit a text and follow one another, all
its nodes lie within the text (`spans_of_tokens`).
-/

namespace SpanLisp

theorem slice_of_within {text : Bytes} {s : Span} (h : s.Within text.length) :
    slice text s = .ok (s.of text) := by
  unfold slice
  rw [if_pos h]

theorem Token.Fits.within {source : Bytes} {t : Token} (h : t.Fits source) :
    t.span.Within source.length :=
  ⟨Nat.le_of_lt h.nonempty, h.bounded⟩

namespace Expr

/-! ### The tokens of a tree -/

/-- The token of a leaf. -/
def leafToken (source : Bytes) (kind : Token.Kind) (s : Span) : Token := ⟨kind, s, s.of source⟩

/-- The opening delimiter at offset `lo`. -/
def openToken (d : Delim) (lo : Nat) : Token := ⟨.opening d, ⟨lo, lo + 1⟩, d.opening⟩

/-- The closing delimiter that ends at offset `hi`. -/
def closeToken (d : Delim) (hi : Nat) : Token := ⟨.closing d, ⟨hi - 1, hi⟩, d.closing⟩

mutual

/-- The tokens that a tree was read from. -/
def tokens (source : Bytes) : Expr → List Token
  | list s xs => openToken .paren s.lo :: tokensAll source xs ++ [closeToken .paren s.hi]
  | vector s xs => openToken .bracket s.lo :: tokensAll source xs ++ [closeToken .bracket s.hi]
  | integer s _ => [leafToken source .integer s]
  | string s => [leafToken source .string s]
  | bool s _ | keyword s _ | nil s | operator s _ | symbol s _ => [leafToken source .symbol s]
  | unlisted .. => []

/-- The tokens that several trees were read from. -/
def tokensAll (source : Bytes) : List Expr → List Token
  | [] => []
  | x :: xs => tokens source x ++ tokensAll source xs

end

theorem tokensAll_append (source : Bytes) (xs ys : List Expr) :
    tokensAll source (xs ++ ys) = tokensAll source xs ++ tokensAll source ys := by
  induction xs with
  | nil => rfl
  | cons x xs ih => rw [List.cons_append, tokensAll, tokensAll, ih, List.append_assoc]

theorem tokensAll_concat (source : Bytes) (xs : List Expr) (x : Expr) :
    tokensAll source (xs ++ [x]) = tokensAll source xs ++ x.tokens source := by
  rw [tokensAll_append, tokensAll, tokensAll, List.append_nil]

/-! ### Leaves and operators -/

/-- The bytes spell a keyword: a colon and a name. -/
def IsKeyword (w : Bytes) : Prop := ∃ name, name ≠ [] ∧ w = 0x3a :: name

/-- The bytes spell one of the three words with a value of their own. -/
def IsLiteral (w : Bytes) : Prop := w = utf8 "true" ∨ w = utf8 "false" ∨ w = utf8 "nil"

mutual

/-- Every leaf is what the bytes of its span dictate: an integer has their decimal value, a keyword
and a symbol are their name's symbol.  An operator stands exactly where `head` says that a list
begins and the bytes name one. -/
def Faithful (source : Bytes) (names : Interner) (head : Bool) : Expr → Prop
  | integer s n => n.toInt = Decimal.toNat (s.of source)
  | string _ => True
  | bool s b => s.of source = boolText b
  | nil s => s.of source = utf8 "nil"
  | keyword s sym => ∃ name, name ≠ [] ∧ s.of source = 0x3a :: name ∧ names.find? name = some sym
  | operator s op => head = true ∧ Operator.ofName? (s.of source) = some op
  | symbol s sym =>
    ¬ IsLiteral (s.of source) ∧ ¬ IsKeyword (s.of source) ∧
      (head = true → Operator.ofName? (s.of source) = none) ∧ names.find? (s.of source) = some sym
  | list _ xs => FaithfulAll source names true xs
  | vector _ xs => FaithfulAll source names false xs
  | unlisted .. => False

/-- Several trees are faithful; `head` says whether the first of them stands at the head of a
list. -/
def FaithfulAll (source : Bytes) (names : Interner) (head : Bool) : List Expr → Prop
  | [] => True
  | x :: xs => Faithful source names head x ∧ FaithfulAll source names false xs

end

theorem faithfulAll_concat {source : Bytes} {names : Interner} :
    ∀ {head : Bool} {xs : List Expr} {x : Expr}, FaithfulAll source names head (xs ++ [x]) ↔
      FaithfulAll source names head xs ∧ Faithful source names (head && xs.isEmpty) x
  | head, [], x => by simp [FaithfulAll]
  | head, y :: xs, x => by
    rw [List.cons_append, FaithfulAll, FaithfulAll, faithfulAll_concat, and_assoc]
    simp

mutual

theorem Faithful.mono {source : Bytes} {names names' : Interner} (hn : names.Extends names') :
    ∀ {head : Bool} {e : Expr}, Faithful source names head e → Faithful source names' head e
  | _, integer _ _, h | _, bool _ _, h | _, nil _, h => h
  | _, string _, _ => trivial
  | _, operator _ _, h => h
  | _, keyword _ _, ⟨name, hne, htext, hfind⟩ => ⟨name, hne, htext, hn.find? hfind⟩
  | _, symbol _ _, ⟨hlit, hkey, hop, hfind⟩ => ⟨hlit, hkey, hop, hn.find? hfind⟩
  | _, list _ _, h | _, vector _ _, h => FaithfulAll.mono hn h

theorem FaithfulAll.mono {source : Bytes} {names names' : Interner} (hn : names.Extends names') :
    ∀ {head : Bool} {xs : List Expr}, FaithfulAll source names head xs →
      FaithfulAll source names' head xs
  | _, [], _ => trivial
  | _, _ :: _, ⟨hx, hxs⟩ => ⟨Faithful.mono hn hx, FaithfulAll.mono hn hxs⟩

end

/-! ### The nodes of a tree -/

mutual

/-- The nodes of a tree, each before its elements. -/
def nodes : Expr → List Expr
  | list s xs => list s xs :: nodesAll xs
  | vector s xs => vector s xs :: nodesAll xs
  | e => [e]

/-- The nodes of several trees. -/
def nodesAll : List Expr → List Expr
  | [] => []
  | x :: xs => nodes x ++ nodesAll xs

end

theorem mem_nodes_self (e : Expr) : e ∈ e.nodes := by
  cases e <;> simp [nodes]

/-- The node covers at least one byte of a text of `size` bytes. -/
def Spans (size : Nat) (e : Expr) : Prop := e.span.lo < e.span.hi ∧ e.span.hi ≤ size

/-- A sequence covers the bytes from its opening to its closing delimiter. -/
theorem bounds_of_delimiters {source : Bytes} {d : Delim} {s : Span} {ts : List Token}
    (h : Token.Laid source (openToken d s.lo :: ts ++ [closeToken d s.hi])) :
    s.lo < s.hi ∧ s.hi ≤ source.length := by
  have hclose : closeToken d s.hi ∈ ts ++ [closeToken d s.hi] := by simp
  have hfits := h.fits _ (List.mem_cons_of_mem _ hclose)
  have horder : s.lo + 1 ≤ s.hi - 1 := (List.pairwise_cons.1 h.ordered).1 _ hclose
  exact ⟨by omega, hfits.bounded⟩

theorem bounds_of_leaf {source : Bytes} {kind : Token.Kind} {s : Span}
    (h : Token.Laid source [leafToken source kind s]) : s.lo < s.hi ∧ s.hi ≤ source.length := by
  have hfits := h.fits _ List.mem_cons_self
  exact ⟨hfits.nonempty, hfits.bounded⟩

theorem sublist_between (d : Delim) (s : Span) (ts : List Token) :
    ts.Sublist (openToken d s.lo :: ts ++ [closeToken d s.hi]) :=
  (List.sublist_append_left _ _).trans ((List.sublist_cons_self _ _).append_right _)

mutual

/-- The nodes of a tree whose tokens fit a text and follow one another lie within the text. -/
theorem spans_of_tokens {source : Bytes} {names : Interner} :
    ∀ {head : Bool} {e : Expr}, Faithful source names head e →
      Token.Laid source (e.tokens source) → ∀ n ∈ e.nodes, n.Spans source.length
  | _, list s xs, hf, h, n, hn => by
    rcases List.mem_cons.1 hn with rfl | hn
    · exact bounds_of_delimiters h
    · exact spansAll_of_tokens hf (h.sublist (sublist_between _ _ _)) n hn
  | _, vector s xs, hf, h, n, hn => by
    rcases List.mem_cons.1 hn with rfl | hn
    · exact bounds_of_delimiters h
    · exact spansAll_of_tokens hf (h.sublist (sublist_between _ _ _)) n hn
  | _, integer _ _, _, h, n, hn | _, string _, _, h, n, hn | _, bool _ _, _, h, n, hn
  | _, keyword _ _, _, h, n, hn | _, nil _, _, h, n, hn | _, operator _ _, _, h, n, hn
  | _, symbol _ _, _, h, n, hn => by
    rw [nodes, List.mem_singleton] at hn
    · subst hn
      exact bounds_of_leaf h
    all_goals simp

theorem spansAll_of_tokens {source : Bytes} {names : Interner} :
    ∀ {head : Bool} {xs : List Expr}, FaithfulAll source names head xs →
      Token.Laid source (tokensAll source xs) → ∀ n ∈ nodesAll xs, n.Spans source.length
  | _, [], _, _, n, hn => absurd hn (by simp [nodesAll])
  | _, x :: xs, ⟨hx, hxs⟩, h, n, hn => by
    rcases List.mem_append.1 hn with hn | hn
    · exact spans_of_tokens hx (h.sublist (List.sublist_append_left _ _)) n hn
    · exact spansAll_of_tokens hxs (h.sublist (List.sublist_append_right _ _)) n hn

end

end Expr

end SpanLisp
