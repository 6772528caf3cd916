import SpanLisp.Defect

/-!
# Symbols

An `Interner` numbers names in the order in which they first appear.  `intern` gives the number of
a name, adding the name if it is new; `find?` looks a name up without adding it; `resolve` spells a
number.
-/

namespace SpanLisp

/-- The number of an interned name. -/
abbrev Symbol := Nat

/-- The names met so far; the position of a name is its symbol. -/
structure Interner where
  /-- The names in the order of their symbols. -/
  names : List Bytes := []
  deriving DecidableEq, Repr

namespace Interner

/-- An interner that knows no name. -/
def empty : Interner := {}

/-- The number of names known. -/
def size (t : Interner) : Nat := t.names.length

/-- The symbol of a known name. -/
def find? (t : Interner) (name : Bytes) : Option Symbol := t.names.idxOf? name

/-- The name of a known symbol. -/
def name? (t : Interner) (sym : Symbol) : Option Bytes := t.names[sym]?

/-- The symbol of a name; a new name gets the next number. -/
def intern (t : Interner) (name : Bytes) : Symbol × Interner :=
  match t.find? name with
  | some sym => (sym, t)
  | none => (t.size, ⟨t.names ++ [name]⟩)

/-- The name of a symbol; a symbol that was never given out is a defect. -/
def resolve (t : Interner) (sym : Symbol) : Except Defect Bytes :=
  match t.name? sym with
  | some name => .ok name
  | none => .error (.foreignSymbol sym t.size)

/-- Interns several names in order. -/
def internAll (t : Interner) (names : List Bytes) : Interner :=
  names.foldl (fun t name => (t.intern name).2) t

end Interner

end SpanLisp
