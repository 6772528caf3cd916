import SpanLisp.Text.Bytes

/-!
# Paths of files

A path is a text with slashes between its steps.  `Path.join` puts a step behind a directory and
`Path.clean` gives the shortest path with the same meaning; `Path.extension` is what follows the
last dot of the last step, with the dot.
-/

namespace SpanLisp.Path

/-- The slash. -/
def slash : UInt8 := 0x2f

/-- Does the path start at the root? -/
def isAbsolute (path : Bytes) : Bool := path.head? = some slash

/-- The steps of a path; an empty step says nothing. -/
def steps (path : Bytes) : List Bytes := (Bytes.splitOn slash path).filter (!·.isEmpty)

/-- Takes one step, the last step first.  Below the root, or below a step upwards, a step upwards
cannot be taken back. -/
def clamp (absolute : Bool) (taken : List Bytes) (step : Bytes) : List Bytes :=
  if step = utf8 "." then taken
  else if step ≠ utf8 ".." then step :: taken
  else match taken with
  | last :: before => if last = utf8 ".." then step :: taken else before
  | [] => if absolute then [] else [step]

/-- The shortest path with the same meaning. -/
def clean (path : Bytes) : Bytes :=
  let absolute := isAbsolute path
  let taken := (steps path).foldl (clamp absolute) []
  let text := Bytes.joinWith [slash] taken.reverse
  if absolute then slash :: text else if text.isEmpty then utf8 "." else text

/-- A step behind a directory. -/
def join (directory step : Bytes) : Bytes := clean (directory ++ slash :: step)

/-- What follows the last dot of the last step, with the dot. -/
def extension (path : Bytes) : Bytes :=
  let last := (path.reverse.takeWhile (· != slash)).reverse
  match Bytes.cut 0x2e last.reverse with
  | (after, some _) => 0x2e :: after.reverse
  | (_, none) => []

end SpanLisp.Path
