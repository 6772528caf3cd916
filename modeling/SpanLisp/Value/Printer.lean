import SpanLisp.Builtin

/-!
# Displaying values

`Value.display` writes a value as the user sees it: strings without quotes, keywords with their
colon, functions as `<function NAME>`, vectors with single spaces.  It is split into a check that
every keyword and function is known (`Value.check`) and the writing itself (`Value.write`).
-/

namespace SpanLisp

namespace Value

mutual

/-- The first keyword or function of a value that is not known, if any. -/
def check (names : Interner) : Value → Except Defect Unit
  | keyword sym => (names.resolve sym).map fun _ => ()
  | function index => (Builtin.nameAt index).map fun _ => ()
  | vector vs => checkAll names vs
  | nil | bool _ | integer _ | string _ | unlisted _ => .ok ()

/-- The first keyword or function of several values that is not known, if any. -/
def checkAll (names : Interner) : List Value → Except Defect Unit
  | [] => .ok ()
  | v :: vs =>
    match check names v with
    | .error d => .error d
    | .ok () => checkAll names vs

end

/-- The name of a symbol, empty for an unknown one. -/
def symbolText (names : Interner) (sym : Symbol) : Bytes := (names.name? sym).getD []

/-- The display of the function at a place. -/
def functionText (index : Int) : Bytes :=
  utf8 "<function " ++ ((Builtin.get? index).map Builtin.name).getD [] ++ utf8 ">"

/-- The display of a keyword. -/
def keywordText (names : Interner) (sym : Symbol) : Bytes := 0x3a :: symbolText names sym

mutual

/-- Writes a value in front of `rest`. -/
def write (names : Interner) : Value → Bytes → Bytes
  | nil, rest => utf8 "nil" ++ rest
  | bool b, rest => (if b then utf8 "true" else utf8 "false") ++ rest
  | integer n, rest => Decimal.ofInt n.toInt ++ rest
  | string s, rest => s ++ rest
  | keyword sym, rest => keywordText names sym ++ rest
  | function index, rest => functionText index ++ rest
  | vector vs, rest => 0x5b :: writeAll names vs (0x5d :: rest)
  | unlisted _, rest => rest

/-- Writes values with single spaces between them in front of `rest`. -/
def writeAll (names : Interner) : List Value → Bytes → Bytes
  | [], rest => rest
  | [v], rest => write names v rest
  | v :: vs, rest => write names v (0x20 :: writeAll names vs rest)

end

/-- A value as the user sees it. -/
def display (names : Interner) (v : Value) : Except Defect Bytes :=
  (v.check names).map fun _ => v.write names []

end Value

end SpanLisp
