import SpanLisp.Text.Bytes

/-!
# The version of the program

A `Build` is the tag and the commit that the program was made from.
-/

namespace SpanLisp

/-- What the program was made from. -/
structure Build where
  /-- The last tag. -/
  tag : Bytes := []
  /-- The last commit. -/
  commit : Bytes := []
  deriving DecidableEq, Repr

/-- The version: tag and commit, or that of a program in development if neither is known. -/
def Build.version (b : Build) : Bytes :=
  if b.tag = [] ∧ b.commit = [] then utf8 "dev" else b.tag ++ utf8 "/" ++ b.commit

end SpanLisp
