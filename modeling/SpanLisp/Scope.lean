import Std.Data.ExtTreeMap
import SpanLisp.Value.Printer

/-!
# Scopes

A `Scope` maps symbols to values.  Scopes live in the arena of a stack, where each knows the place
of the scope that encloses it.  `Scope.listing` lists the bindings by name.
-/

namespace SpanLisp

/-- A finite map from symbols to values. -/
abbrev Bindings := Std.ExtTreeMap Symbol Value

/-- A frame of bindings. -/
structure Scope where
  /-- The bindings of this frame alone. -/
  bindings : Bindings := ∅
  /-- What the frame is for; empty if it has no name. -/
  name : Bytes := []
  /-- Does the frame hold the builtins?  Such a frame is never popped by name. -/
  isGlobal : Bool := false
  /-- The place of the enclosing frame. -/
  parent : Option Nat := none

namespace Scope

/-- A frame without bindings. -/
def named (name : Bytes) : Scope := { name := name }

/-- The frame with one more binding, or a changed one. -/
def bind (s : Scope) (sym : Symbol) (v : Value) : Scope :=
  { s with bindings := s.bindings.insert sym v }

/-- The number of bindings. -/
def size (s : Scope) : Nat := s.bindings.size

/-- Collects the results of `f`, up to its first defect. -/
def collect {α β : Type} (f : α → Except Defect β) : List α → Except Defect (List β)
  | [] => .ok []
  | a :: as =>
    match f a with
    | .error d => .error d
    | .ok b => (collect f as).map (b :: ·)

/-- The bindings with their symbols spelled out, in the order of the names. -/
def byName (s : Scope) (names : Interner) : Except Defect (List (Bytes × Value)) :=
  (collect (fun b => (names.resolve b.1).map (·, b.2)) s.bindings.toList).map
    (·.mergeSort fun a b => Bytes.atMost a.1 b.1)

/-- One line of a listing. -/
def bindingLine (names : Interner) (indent : Bytes) (b : Bytes × Value) : Except Defect Bytes :=
  (b.2.display names).map fun text =>
    indent ++ utf8 "    " ++ b.1 ++ utf8 " = " ++ text ++ utf8 "\n"

/-- The name of the frame in listings. -/
def label (s : Scope) : Bytes := if s.name = [] then utf8 "(anonymous)" else s.name

/-- The frame as a listing: its name, then a line for each binding. -/
def listing (s : Scope) (names : Interner) (indent : Nat) : Except Defect Bytes :=
  let pad := Bytes.copies indent 0x20
  match s.byName names with
  | .error d => .error d
  | .ok bs => (collect (bindingLine names pad) bs).map fun lines =>
    pad ++ utf8 "scope " ++ s.label ++ utf8 "\n" ++ lines.flatten

end Scope

end SpanLisp
