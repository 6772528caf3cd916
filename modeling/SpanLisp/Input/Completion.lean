import SpanLisp.Builtin

/-!
# Completions

What a half typed line can be completed to: the beginnings of forms and calls, and the commands of
the dialogue.
-/

namespace SpanLisp.Completion

/-- The beginnings of special forms. -/
def forms : List Bytes := [utf8 "(", utf8 "(def! ", utf8 "(if ", utf8 "(let* "]

/-- The beginnings of calls of builtin functions. -/
def calls : List Bytes := Builtin.names.map fun name => utf8 "(" ++ name ++ utf8 " "

/-- The commands; a blank follows those that take an argument. -/
def commands : List Bytes :=
  [utf8 ".ast ", utf8 ".clear", utf8 ".gls", utf8 ".load ", utf8 ".ls", utf8 ".quit", utf8 ".save ",
    utf8 ".tokens ", utf8 ".verb"]

/-- Everything that a line can be completed to. -/
def all : List Bytes := forms ++ calls ++ commands

/-- The completions of a line. -/
def ofLine (line : Bytes) : List Bytes := all.filter (line.isPrefixOf ·)

end SpanLisp.Completion
