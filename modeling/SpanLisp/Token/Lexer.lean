import SpanLisp.Text.Utf8
import SpanLisp.Token
import SpanLisp.Fault

/-!
# From characters to tokens

A `Lexer` is a position in a text.  `Lexer.next` takes the token at the front: a delimiter, a
string up to the next quote, or the longest run of digits, blanks or symbol characters.  It reports
the first character that starts no token, and goes on reporting it.  `tokens` collects the tokens
of a text up to its end or to that error.
-/

namespace SpanLisp

namespace Token

/-- The delimiter token that a character is, if any. -/
def delimiter? (c : Char) : Option Kind :=
  if c = '(' then some (.opening .paren)
  else if c = ')' then some (.closing .paren)
  else if c = '[' then some (.opening .bracket)
  else if c = ']' then some (.closing .bracket)
  else if c = Char.ofNat 0x7b then some (.opening .brace)
  else if c = Char.ofNat 0x7d then some (.closing .brace)
  else none

/-- Blanks separate tokens; a comma is one of them. -/
def isBlank (c : Char) : Bool := c = ' ' || c = '\t' || c = ',' || c = '\n' || c = '\r'

/-- The decimal digits. -/
def isDigit (c : Char) : Bool := '0' ≤ c && c ≤ '9'

/-- The characters that are reserved: the quote and three that start no token. -/
def isReserved (c : Char) : Bool :=
  c = '"' || c = ';' || c = '\'' || c = '\\'

/-- The characters that a name can hold. -/
def isSymbolic (c : Char) : Bool := !isReserved c && (delimiter? c).isNone && !isBlank c

end Token

/-- A position in a text. -/
structure Lexer where
  /-- The characters still to read. -/
  rest : List Rune
  /-- The offset of the first of them. -/
  pos : Nat := 0
  /-- The error that ended the reading. -/
  failure : Option SyntaxError := none
  deriving Repr

/-- What the lexer finds at the front of the text. -/
inductive Scan where
  /-- A token. -/
  | token (t : Token)
  /-- Nothing: the text has been read. -/
  | finished
  /-- A mistake, where the reading ends. -/
  | failed (e : SyntaxError)
  deriving DecidableEq, Repr

namespace Lexer

/-- The start of a text. -/
def ofText (text : Bytes) : Lexer := { rest := Utf8.runes text }

/-- The bytes of a run of characters. -/
def spell (run : List Rune) : Bytes := run.flatMap Rune.bytes

/-- Hands out the characters `run` as one token and goes on with `rest`. -/
def emit (lx : Lexer) (kind : Token.Kind) (run rest : List Rune) : Scan × Lexer :=
  let text := spell run
  let stop := lx.pos + text.length
  (.token ⟨kind, ⟨lx.pos, stop⟩, text⟩, { lx with rest := rest, pos := stop })

/-- Ends the reading with an error on the characters `run`. -/
def refuse (lx : Lexer) (kind : SyntaxError.Kind) (run rest : List Rune) : Scan × Lexer :=
  let stop := lx.pos + (spell run).length
  let e : SyntaxError := ⟨kind, ⟨lx.pos, stop⟩⟩
  (.failed e, { rest := rest, pos := stop, failure := some e })

/-- Hands out the longest run of characters that satisfy `p` as one token. -/
def emitRun (lx : Lexer) (kind : Token.Kind) (p : Char → Bool) (r : Rune) (rs : List Rune) :
    Scan × Lexer :=
  lx.emit kind (r :: rs.takeWhile (p ·.char)) (rs.dropWhile (p ·.char))

/-- Hands out the string that starts with the quote `r`. -/
def emitString (lx : Lexer) (r : Rune) (rs : List Rune) : Scan × Lexer :=
  let body := rs.takeWhile (·.char != '"')
  match rs.dropWhile (·.char != '"') with
  | [] => lx.refuse .unterminatedString (r :: body) []
  | q :: rest => lx.emit .string (r :: body ++ [q]) rest

/-- Takes what stands at the front of the text. -/
def next (lx : Lexer) : Scan × Lexer :=
  match lx.failure, lx.rest with
  | some e, _ => (.failed e, lx)
  | none, [] => (.finished, lx)
  | none, r :: rs =>
    if r.char = '"' then lx.emitString r rs
    else match Token.delimiter? r.char with
    | some kind => lx.emit kind [r] rs
    | none =>
      if Token.isDigit r.char then lx.emitRun .integer Token.isDigit r rs
      else if Token.isSymbolic r.char then lx.emitRun .symbol Token.isSymbolic r rs
      else if Token.isBlank r.char then lx.emitRun .blank Token.isBlank r rs
      else lx.refuse .unknownStart [r] rs

/-- A token takes at least one character. -/
theorem length_rest_next_lt {lx lx' : Lexer} {t : Token} (h : lx.next = (.token t, lx')) :
    lx'.rest.length < lx.rest.length := by
  have drop_le (p : Rune → Bool) (rs : List Rune) : (rs.dropWhile p).length ≤ rs.length :=
    (List.dropWhile_sublist p).length_le
  unfold next at h
  split at h
  · simp at h
  · simp at h
  · rename_i r rs _ hrest
    rw [hrest]
    have run (kind : Token.Kind) (p : Char → Bool) (h : lx.emitRun kind p r rs = (.token t, lx')) :
        lx'.rest.length < (r :: rs).length := by
      simp only [emitRun, emit, Prod.mk.injEq] at h
      rw [← h.2]
      exact Nat.lt_succ_of_le (drop_le _ _)
    split at h
    · unfold emitString at h
      split at h
      · simp [refuse] at h
      · rename_i q rest hq
        simp only [emit, Prod.mk.injEq] at h
        rw [← h.2]
        have := drop_le (·.char != '"') rs
        rw [hq] at this
        simp only [List.length_cons] at this ⊢
        omega
    · split at h
      · simp only [emit, Prod.mk.injEq] at h
        rw [← h.2]
        simp
      · split at h
        · exact run _ _ h
        · split at h
          · exact run _ _ h
          · split at h
            · exact run _ _ h
            · simp [refuse] at h

/-- The tokens up to the end of the text or to the first error, and the position there. -/
def drain (lx : Lexer) : List Token × Option SyntaxError × Lexer :=
  match _h : lx.next with
  | (.token t, lx') =>
    let r := drain lx'
    (t :: r.1, r.2)
  | (.finished, lx') => ([], none, lx')
  | (.failed e, lx') => ([], some e, lx')
termination_by lx.rest.length
decreasing_by exact length_rest_next_lt _h

end Lexer

/-- The tokens of a text, up to its end or to the first error. -/
def tokens (text : Bytes) : List Token × Option SyntaxError :=
  let r := (Lexer.ofText text).drain
  (r.1, r.2.1)

end SpanLisp
