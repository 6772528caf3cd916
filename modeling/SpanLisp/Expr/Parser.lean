import SpanLisp.Expr
import SpanLisp.Token.Lexer

/-!
# From tokens to syntax trees

The parser reads tokens from left to right and keeps the sequences that are still open, innermost
first (`Parser.State`).  Each token either extends the innermost open sequence, opens or closes
one, or is refused; `Parser.step` is one token.  `parseAll` reads every expression of a text and
`parseLine` exactly one, a blank line being `nil`.

A `limit` bounds the number of sequences open at once; 0 means no bound.
-/

namespace SpanLisp

namespace Parser

/-- How many expressions a text may hold. -/
inductive Mode where
  /-- At most one. -/
  | line
  /-- Any number. -/
  | script
  deriving DecidableEq, Repr

/-- A sequence whose closing delimiter is still to come. -/
structure Pending where
  /-- Its opening delimiter. -/
  delim : Delim
  /-- The offset of that delimiter. -/
  lo : Nat
  /-- The elements read so far, last first. -/
  elems : List Expr := []
  deriving Repr

/-- What has been read so far. -/
structure State where
  /-- The open sequences, innermost first. -/
  pending : List Pending := []
  /-- The complete top-level expressions, last first. -/
  complete : List Expr := []
  /-- The names met. -/
  names : Interner
  deriving Repr

namespace State

/-- Adds a complete expression to the innermost open sequence. -/
def add (st : State) (e : Expr) : State :=
  match st.pending with
  | [] => { st with complete := e :: st.complete }
  | p :: ps => { st with pending := { p with elems := e :: p.elems } :: ps }

/-- Does the next token stand at the head of a list? -/
def atHead (st : State) : Bool :=
  match st.pending with
  | ⟨.paren, _, []⟩ :: _ => true
  | _ => false

/-- Is a line complete, so that only blanks may follow? -/
def lineIsOver (st : State) (mode : Mode) : Bool :=
  mode = .line && st.pending.isEmpty && !st.complete.isEmpty

end State

/-- The largest integer literal. -/
def maxInteger : Nat := 9223372036854775807

/-- The sequence with the given delimiter. -/
def sequence (d : Delim) (span : Span) (elems : List Expr) : Expr :=
  if d = .paren then .list span elems else .vector span elems

/-- Reads an integer literal. -/
def integer (span : Span) (digits : Bytes) : Except SyntaxError Expr :=
  let n := Decimal.toNat digits
  if n ≤ maxInteger then .ok (.integer span (Int64.ofNat n)) else .error ⟨.integerTooLarge, span⟩

/-- Reads a word that is no operator: a literal, a keyword or a name. -/
def word (span : Span) (text : Bytes) (names : Interner) : Expr × Interner :=
  if text = utf8 "true" then (.bool span true, names)
  else if text = utf8 "false" then (.bool span false, names)
  else if text = utf8 "nil" then (.nil span, names)
  else match text with
  | 0x3a :: b :: bs =>
    let r := names.intern (b :: bs)
    (.keyword span r.1, r.2)
  | _ =>
    let r := names.intern text
    (.symbol span r.1, r.2)

/-- Reads a word, which is an operator only at the head of a list. -/
def wordAt (head : Bool) (span : Span) (text : Bytes) (names : Interner) : Expr × Interner :=
  match if head then Operator.ofName? text else none with
  | some op => (.operator span op, (names.intern text).2)
  | none => word span text names

/-- Reads one token. -/
def step (mode : Mode) (limit : Nat) (st : State) (t : Token) : Except SyntaxError State :=
  if t.kind = .blank then .ok st
  else if st.lineIsOver mode then .error ⟨.expectedEndOfLine, t.span⟩
  else match t.kind with
  | .blank => .ok st
  | .integer => (integer t.span t.text).map st.add
  | .string => .ok (st.add (.string t.span))
  | .symbol =>
    let r := wordAt st.atHead t.span t.text st.names
    .ok ({ st with names := r.2 }.add r.1)
  | .opening d =>
    if d = .brace then .error ⟨.unsupportedDelimiter, t.span⟩
    else if 0 < limit ∧ limit < st.pending.length + 1 then .error ⟨.nestingTooDeep, t.span⟩
    else .ok { st with pending := ⟨d, t.span.lo, []⟩ :: st.pending }
  | .closing d =>
    match st.pending with
    | [] => .error ⟨.unmatchedClose, t.span⟩
    | p :: ps =>
      if d ≠ p.delim then .error ⟨.incorrectClose, t.span⟩
      else .ok ({ st with pending := ps }.add (sequence p.delim ⟨p.lo, t.span.hi⟩ p.elems.reverse))

/-- Ends the reading at the end of a text of `size` bytes, or at a lexing error. -/
def finish (mode : Mode) (size : Nat) (failure : Option SyntaxError) (st : State) :
    Except SyntaxError (List Expr) :=
  match failure with
  | some e => .error (if st.lineIsOver mode then ⟨.expectedEndOfLine, e.span⟩ else e)
  | none =>
    if st.pending.isEmpty then .ok st.complete.reverse else .error ⟨.unclosed, .point size⟩

/-- Reads tokens up to the first mistake or to the end, and keeps the names met on the way. -/
def run (mode : Mode) (limit size : Nat) (failure : Option SyntaxError) :
    List Token → State → Except SyntaxError (List Expr) × Interner
  | [], st => (finish mode size failure st, st.names)
  | t :: ts, st =>
    match step mode limit st t with
    | .ok st' => run mode limit size failure ts st'
    | .error e => (.error e, st.names)

/-- Reads a text. -/
def parse (mode : Mode) (limit : Nat) (text : Bytes) (names : Interner) :
    Except SyntaxError (List Expr) × Interner :=
  let r := tokens text
  run mode limit text.length r.2 r.1 { names := names }

end Parser

/-- Reads every expression of a text, in order. -/
def parseAll (limit : Nat) (text : Bytes) (names : Interner) :
    Except SyntaxError (List Expr) × Interner :=
  Parser.parse .script limit text names

/-- Reads the only expression of a text; a blank text reads as `nil` at its end. -/
def parseLine (limit : Nat) (text : Bytes) (names : Interner) :
    Except SyntaxError Expr × Interner :=
  let r := Parser.parse .line limit text names
  (r.1.map fun es => es.headD (.nil (.point text.length)), r.2)

end SpanLisp
