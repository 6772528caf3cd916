import SpanLisp.Value.Printer

/-!
# Values at rest

A `Stored` value is a value with its symbols spelled out, so that a session with another interner
can read it back.  `Stored.ofValue` spells a value and `Stored.toValue` gives the spelled value new
symbols; it refuses functions and kinds that it does not know.
-/

namespace SpanLisp

/-- A value with its symbols spelled out. -/
inductive Stored where
  /-- Nothing. -/
  | nil
  /-- A truth value. -/
  | bool (b : Bool)
  /-- The builtin function with a name. -/
  | function (name : Bytes)
  /-- A 64 bit integer. -/
  | integer (n : Int64)
  /-- The keyword with a name. -/
  | keyword (name : Bytes)
  /-- A string. -/
  | string (text : Bytes)
  /-- A sequence of values. -/
  | vector (elems : List Stored)
  /-- A value of no known kind. -/
  | unlisted (code : Int64)
  deriving Repr

/-- A name with the value bound to it. -/
structure Entry where
  /-- The name. -/
  name : Bytes
  /-- Its value. -/
  value : Stored
  deriving Repr

namespace Stored

/-- The number of a stored value's kind. -/
def kindCode : Stored → Int64
  | nil => 0
  | bool _ => 1
  | function _ => 2
  | integer _ => 3
  | keyword _ => 4
  | string _ => 5
  | vector _ => 6
  | unlisted c => c

/-- Why a stored value means nothing here. -/
inductive Failure where
  /-- No builtin has this name. -/
  | unknownBuiltin (name : Bytes)
  /-- No kind has this number. -/
  | unknownKind (code : Int64)
  deriving DecidableEq, Repr

/-- What a failure reads like. -/
def Failure.message : Failure → Bytes
  | unknownBuiltin name => utf8 "snapshot refers to unknown builtin '" ++ name ++ utf8 "'"
  | unknownKind code => utf8 "snapshot holds unknown value kind " ++ Decimal.ofInt code.toInt

mutual

/-- Spells the symbols of a value, which have to be known. -/
def spell (names : Interner) : Value → Stored
  | .nil => nil
  | .bool b => bool b
  | .function index => function (((Builtin.get? index).map Builtin.name).getD [])
  | .integer n => integer n
  | .keyword sym => keyword (Value.symbolText names sym)
  | .string s => string s
  | .vector vs => vector (spellAll names vs)
  | .unlisted code => unlisted (Int64.ofInt code)

/-- Spells the symbols of several values. -/
def spellAll (names : Interner) : List Value → List Stored
  | [] => []
  | v :: vs => spell names v :: spellAll names vs

end

/-- The value with its symbols spelled out. -/
def ofValue (names : Interner) (v : Value) : Except Defect Stored :=
  (v.check names).map fun _ => spell names v

mutual

/-- Gives a stored value symbols.  Keywords met before a failure stay interned. -/
def toValue (names : Interner) : Stored → Except Failure Value × Interner
  | nil => (.ok .nil, names)
  | bool b => (.ok (.bool b), names)
  | integer n => (.ok (.integer n), names)
  | string s => (.ok (.string s), names)
  | keyword name =>
    let r := names.intern name
    (.ok (.keyword r.1), r.2)
  | function name =>
    match Builtin.find? name with
    | some index => (.ok (.function index), names)
    | none => (.error (.unknownBuiltin name), names)
  | vector elems =>
    let r := toValues names elems
    (r.1.map .vector, r.2)
  | unlisted code => (.error (.unknownKind code), names)

/-- Gives several stored values symbols, up to the first failure. -/
def toValues (names : Interner) : List Stored → Except Failure (List Value) × Interner
  | [] => (.ok [], names)
  | s :: ss =>
    match toValue names s with
    | (.error e, names') => (.error e, names')
    | (.ok v, names') =>
      let r := toValues names' ss
      (r.1.map (v :: ·), r.2)

end

end Stored

end SpanLisp
