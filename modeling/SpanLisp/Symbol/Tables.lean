import Std.Data.ExtTreeMap
import SpanLisp.Symbol

/-!
# Symbols in words

`Interner.Tables` keeps the names of an interner twice: `forward` leads from a name to its symbol,
`reverse` from a symbol to its name.  A symbol is here a word of 32 bits, the number of names known
cut to that size.  A call reads and writes one table at a time, so that between the two writes of
`Tables.intern` the tables differ.
-/

namespace SpanLisp.Interner

/-- The two tables of an interner. -/
structure Tables where
  /-- The symbols of the names. -/
  forward : Std.ExtTreeMap Bytes UInt32 := ∅
  /-- The names in the order of their symbols. -/
  reverse : Array Bytes := #[]

namespace Tables

/-- Tables without names. -/
def empty : Tables := {}

/-- The number of names known. -/
def size (T : Tables) : Nat := T.reverse.size

/-- Enters a symbol under its name. -/
def enter (name : Bytes) (sym : UInt32) : StateM Tables Unit :=
  modify fun T => { T with forward := T.forward.insert name sym }

/-- Lists a name behind the others. -/
def append (name : Bytes) : StateM Tables Unit :=
  modify fun T => { T with reverse := T.reverse.push name }

/-- The symbol of a name; a new name gets the next number, as far as that fits in a word. -/
def intern (name : Bytes) : StateM Tables UInt32 := do
  match (← get).forward[name]? with
  | some sym => return sym
  | none =>
    let sym := UInt32.ofNat (← get).size
    enter name sym
    append name
    return sym

/-- The symbol of a known name. -/
def lookup (name : Bytes) : StateM Tables (Option UInt32) := return (← get).forward[name]?

/-- The name of a symbol; a symbol beyond the names known is a defect. -/
def resolve (sym : UInt32) : StateM Tables (Except Defect Bytes) := do
  let T ← get
  if T.size ≤ sym.toNat then
    return .error (.foreignSymbol sym.toNat T.size)
  match T.reverse[sym.toNat]? with
  | some name => return .ok name
  | none => return .error .outOfBounds

/-- Interns names one after the other and lists their symbols. -/
def internAll (names : List Bytes) : StateM Tables (List UInt32) := names.mapM intern

/-- The symbols that new tables give out in a run of calls, and the tables after it. -/
def ofCalls (calls : List Bytes) : List UInt32 × Tables := (internAll calls).run empty

end Tables

end SpanLisp.Interner
