import SpanLisp.Text.Grapheme
import SpanLisp.Text.WidthTable

/-!
# Display width

How many columns of a terminal a character (`Width.ofChar`) or a text (`Width.ofText`) takes.  A
cluster of characters is as wide as the first of them that takes a column at all.
-/

namespace SpanLisp.Width

/-- The number of columns of a character. -/
def ofChar (c : Char) : Nat :=
  let n := c.toNat
  if n < 0x20 || (0x7f ≤ n && n ≤ 0x9f) || n = 0xad then 0
  else if n < 0x300 then 1
  else if narrow.has n then 1
  else if unprinted.has n || combining.has n then 0
  else if double.has n then 2
  else 1

/-- The number of columns of a cluster. -/
def ofCluster (cs : List Char) : Nat := ((cs.map ofChar).find? (0 < ·)).getD 0

/-- The number of columns of a text. -/
def ofText (t : Bytes) : Nat :=
  (Grapheme.clusters ((Utf8.runes t).map Rune.char)).foldl (fun n cs => n + ofCluster cs) 0

end SpanLisp.Width
