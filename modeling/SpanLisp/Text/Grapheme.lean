import SpanLisp.Text.GraphemeTable
import SpanLisp.Text.Utf8

/-!
# Clusters of characters

A reader sees some runs of characters as one: a letter with its accents, a Hangul syllable spelled
in parts, a flag, a family of pictographs.  `Grapheme.clusters` cuts a text into such runs.  It is
a machine that meets each character in a state (`Grapheme.State`) and decides by rules of different
rank whether a new cluster starts there.
-/

namespace SpanLisp.Grapheme

/-- The part that a character plays in a cluster. -/
inductive Class where
  /-- Any other character. -/
  | other
  /-- Carriage return. -/
  | cr
  /-- Line feed. -/
  | lf
  /-- A control character. -/
  | control
  /-- A Hangul leading consonant. -/
  | leading
  /-- A Hangul vowel. -/
  | vowel
  /-- A Hangul trailing consonant. -/
  | trailing
  /-- A Hangul syllable without a trailing consonant. -/
  | open
  /-- A Hangul syllable with a trailing consonant. -/
  | closed
  /-- A mark that extends a cluster. -/
  | extend
  /-- The zero width joiner. -/
  | joiner
  /-- A spacing mark. -/
  | spacing
  /-- A mark that belongs to the following character. -/
  | prepend
  /-- A pictograph. -/
  | pictograph
  /-- A regional indicator. -/
  | regional
  deriving DecidableEq, Repr

/-- The class of a character. -/
def classOf (c : Char) : Class :=
  let n := c.toNat
  if n = 0x0d then .cr
  else if n = 0x0a then .lf
  else if 0x20 ≤ n && n < 0x7f then .other
  else if n = 0x200d then .joiner
  else if 0xac00 ≤ n && n ≤ 0xd7a3 then (if (n - 0xac00) % 28 = 0 then .open else .closed)
  else if control.has n then .control
  else if extend.has n then .extend
  else if spacing.has n then .spacing
  else if pictograph.has n then .pictograph
  else if leading.has n then .leading
  else if vowel.has n then .vowel
  else if trailing.has n then .trailing
  else if regional.has n then .regional
  else if prepend.has n then .prepend
  else .other

/-- What the characters before have led to. -/
inductive State where
  /-- Nothing of note. -/
  | any
  /-- After a carriage return. -/
  | cr
  /-- After another control. -/
  | control
  /-- After a leading consonant. -/
  | leading
  /-- After a syllable that a vowel or a trailing consonant can extend. -/
  | open
  /-- After a syllable that a trailing consonant can extend. -/
  | closed
  /-- After a prepended mark. -/
  | prepend
  /-- After a pictograph. -/
  | pictograph
  /-- After a pictograph and a joiner. -/
  | joined
  /-- After an odd number of regional indicators. -/
  | oddRegional
  /-- After an even number of regional indicators. -/
  | evenRegional
  deriving DecidableEq, Repr

/-- What a rule decides: the next state, whether a cluster starts, and the rank of the rule; a
lower rank goes first. -/
structure Rule where
  /-- The state after the character. -/
  next : State
  /-- Does a cluster start before the character? -/
  starts : Bool
  /-- The rank of the rule. -/
  rank : Nat

/-- The rules for a class in any state. -/
def classRule : Class → Option Rule
  | .cr => some ⟨.cr, true, 50⟩
  | .lf => some ⟨.control, true, 50⟩
  | .control => some ⟨.control, true, 50⟩
  | .leading => some ⟨.leading, true, 9990⟩
  | .open => some ⟨.open, true, 9990⟩
  | .vowel => some ⟨.open, true, 9990⟩
  | .closed => some ⟨.closed, true, 9990⟩
  | .trailing => some ⟨.closed, true, 9990⟩
  | .extend => some ⟨.any, false, 90⟩
  | .joiner => some ⟨.any, false, 90⟩
  | .spacing => some ⟨.any, false, 91⟩
  | .prepend => some ⟨.prepend, true, 9990⟩
  | .pictograph => some ⟨.pictograph, true, 9990⟩
  | .regional => some ⟨.oddRegional, true, 9990⟩
  | .other => none

/-- The rules for a state and any class. -/
def stateRule : State → Option Rule
  | .cr => some ⟨.any, true, 40⟩
  | .control => some ⟨.any, true, 40⟩
  | .prepend => some ⟨.any, false, 92⟩
  | _ => none

/-- The rules for a state and a class. -/
def pairRule : State → Class → Option Rule
  | .any, c => classRule c
  | .cr, .lf => some ⟨.any, false, 30⟩
  | .leading, .leading => some ⟨.leading, false, 60⟩
  | .leading, .vowel => some ⟨.open, false, 60⟩
  | .leading, .open => some ⟨.open, false, 60⟩
  | .leading, .closed => some ⟨.closed, false, 60⟩
  | .open, .vowel => some ⟨.open, false, 70⟩
  | .open, .trailing => some ⟨.closed, false, 70⟩
  | .closed, .trailing => some ⟨.closed, false, 80⟩
  | .pictograph, .extend => some ⟨.pictograph, false, 110⟩
  | .pictograph, .joiner => some ⟨.joined, false, 110⟩
  | .joined, .pictograph => some ⟨.pictograph, false, 110⟩
  | .oddRegional, .regional => some ⟨.evenRegional, false, 120⟩
  | .evenRegional, .regional => some ⟨.oddRegional, true, 120⟩
  | _, _ => none

/-- The rule that applies: the one for the pair, else the rule for the class unless the rule for
the state has the lower rank.  Without a rule a cluster starts. -/
def rule (s : State) (c : Class) : Rule :=
  match pairRule s c, stateRule s, classRule c with
  | some r, _, _ => r
  | none, some rs, some rc => if rs.rank < rc.rank then rs else rc
  | none, some rs, none => rs
  | none, none, some rc => rc
  | none, none, none => ⟨.any, true, 9999⟩

/-- Cuts characters into clusters; `current` is the cluster so far, last character first. -/
def clustersFrom : State → List Char → List Char → List (List Char)
  | _, [], [] => []
  | _, current, [] => [current.reverse]
  | s, current, c :: cs =>
    let r := rule s (classOf c)
    if current.isEmpty then clustersFrom r.next [c] cs
    else if r.starts then current.reverse :: clustersFrom r.next [c] cs
    else clustersFrom r.next (c :: current) cs

/-- The clusters of a run of characters. -/
def clusters (cs : List Char) : List (List Char) := clustersFrom .any [] cs

end SpanLisp.Grapheme
