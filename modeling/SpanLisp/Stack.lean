import SpanLisp.Scope

/-!
# The stack of scopes

A `Stack` is an arena of frames.  A pushed frame records the place of the frame below it, and
`Stack.lookup` follows these places from the top.  `height` counts the frames in use.  The arena
reserves room ahead (`capacity`), and truncating to more frames than there are, within that room,
leaves places without a frame.

The operations that change a stack (`StackM`) are made of single reads and writes of the arena, and
keep the changes made before a failure.
-/

namespace SpanLisp

/-- Why a stack operation fails. -/
inductive Stack.Failure where
  /-- There is no such frame. -/
  | underflow
  /-- The global frame stays. -/
  | popGlobal
  /-- A promise was broken. -/
  | defect (d : Defect)
  deriving DecidableEq, Repr

/-- What a stack failure reads like. -/
def Stack.Failure.message : Stack.Failure → Bytes
  | underflow => Defect.underflowText
  | popGlobal => Defect.popGlobalText
  | defect d => d.message

/-- The failure as a defect, where the operation was promised to succeed. -/
def Stack.Failure.toDefect : Stack.Failure → Defect
  | underflow => .underflow
  | popGlobal => .globalOnTop
  | defect d => d

/-- An arena of frames. -/
structure Stack where
  /-- What the stack is for. -/
  name : Bytes := []
  /-- The frames from the bottom up; a place may be without one. -/
  frames : Array (Option Scope) := #[]
  /-- The number of frames in use. -/
  height : Nat := 0
  /-- The number of places reserved. -/
  capacity : Nat := 8

namespace Stack

/-- A stack without frames. -/
def ofName (name : Bytes) : Stack := { name := name }

/-- The place of the top frame, -1 if there is none. -/
def top (s : Stack) : Int := (s.height : Int) - 1

/-- Has the stack no frame? -/
def isEmpty (s : Stack) : Bool := s.height = 0

/-- The place of the top frame, if there is one. -/
def topPlace? (s : Stack) : Option Nat := if s.height = 0 then none else some (s.height - 1)

/-- The place `n` frames below the top. -/
def place? (s : Stack) (n : Int) : Option Nat :=
  if n < 0 ∨ (s.height : Int) ≤ n then none else some (s.height - 1 - n.toNat)

/-- The places reserved once one more frame has been put on top. -/
def nextCapacity (s : Stack) : Nat :=
  if s.frames.size < s.capacity then s.capacity else 2 * s.capacity

/-- The number of places that the arena can have without being moved. -/
def room (s : Stack) : Nat := max s.frames.size s.capacity

/-- The stack with one more frame on top, enclosed by the frame below it. -/
def withTop (s : Stack) (scope : Scope) : Stack :=
  let capacity := s.nextCapacity
  let parent := s.topPlace?
  { s with
    capacity := capacity
    height := s.height + 1
    frames := s.frames.push (some { scope with parent := parent }) }

/-- The stack with an empty frame of the given name on top. -/
def withNamed (s : Stack) (name : Bytes) : Stack := s.withTop (Scope.named name)

/-- The stack without its top frame. -/
def withoutTop (s : Stack) : Stack :=
  { s with frames := s.frames.extract 0 (s.height - 1), height := s.height - 1 }

/-- The frame at a place; a place without one is a defect. -/
def frameAt (s : Stack) (place : Nat) : Except Defect Scope :=
  match s.frames[place]? with
  | some (some scope) => .ok scope
  | _ => .error .outOfBounds

/-- The frame `n` places below the top. -/
def get (s : Stack) (n : Int) : Except Failure Scope :=
  match s.place? n with
  | none => .error .underflow
  | some place => (s.frameAt place).mapError .defect

/-- The top frame, which has to exist. -/
def getTop (s : Stack) : Except Defect Scope :=
  match s.topPlace? with
  | none => .error .underflow
  | some place => s.frameAt place

/-- The bottom frame, which has to exist. -/
def root (s : Stack) : Except Defect Scope :=
  if s.height = 0 then .error .underflow else s.frameAt 0

/-- Follows the enclosing frames from a place to the first that binds `sym`.  Enclosing frames lie
below, so `fuel` above the place suffices. -/
def lookupFrom (s : Stack) (sym : Symbol) :
    (fuel : Nat) → Option Nat → Except Defect (Option (Value × Scope))
  | fuel + 1, some place =>
    match s.frameAt place with
    | .error d => .error d
    | .ok scope =>
      match scope.bindings[sym]? with
      | some v => .ok (some (v, scope))
      | none => lookupFrom s sym fuel scope.parent
  | _, _ => .ok none

/-- The binding of a symbol in the first frame that has one, from the top down. -/
def lookup (s : Stack) (sym : Symbol) : Except Defect (Option (Value × Scope)) :=
  s.lookupFrom sym s.height s.topPlace?

/-- The line that stands for a hidden frame. -/
def hiddenLine (place : Nat) (scope : Scope) : Bytes :=
  utf8 "  frame " ++ Decimal.ofNat place ++ utf8 " '" ++ scope.name ++ utf8 "': " ++
    Decimal.ofNat scope.size ++ utf8 " binding(s) (hidden)\n"

/-- Lists the frames from a place down. -/
def listingFrom (s : Stack) (names : Interner) (showGlobal : Bool) :
    Nat → Option Nat → Except Defect Bytes
  | fuel + 1, some place =>
    match s.frameAt place with
    | .error d => .error d
    | .ok scope =>
      let entry := if scope.isGlobal && !showGlobal then .ok (hiddenLine place scope)
        else scope.listing names 2
      match entry with
      | .error d => .error d
      | .ok text => (listingFrom s names showGlobal fuel scope.parent).map (text ++ ·)
  | _, _ => .ok []

/-- Lists the frames from the top down; the bindings of a global frame only on demand. -/
def listing (s : Stack) (names : Interner) (showGlobal : Bool) : Except Defect Bytes :=
  (s.listingFrom names showGlobal s.height s.topPlace?).map fun text =>
    utf8 "stack " ++ s.name ++ utf8 ": " ++ Decimal.ofNat s.height ++ utf8 " frame(s)\n" ++ text

end Stack

/-! ### Operations -/

/-- A computation on a stack that may fail, keeping its changes. -/
def StackM (ε α : Type) : Type := Stack → Except ε α × Stack

namespace StackM

variable {ε α β : Type}

instance : Monad (StackM ε) where
  pure a s := (.ok a, s)
  bind x f s :=
    match x s with
    | (.ok a, s') => f a s'
    | (.error e, s') => (.error e, s')

theorem bind_of_ok {x : StackM ε α} {f : α → StackM ε β} {s s' : Stack} {a : α}
    (h : x s = (.ok a, s')) : (x >>= f) s = f a s' := by
  simp only [bind, h]

theorem bind_of_error {x : StackM ε α} {f : α → StackM ε β} {s s' : Stack} {e : ε}
    (h : x s = (.error e, s')) : (x >>= f) s = (.error e, s') := by
  simp only [bind, h]

/-- Ends the computation. -/
def throw (e : ε) : StackM ε α := fun s => (.error e, s)

/-- Reads the stack, which may fail. -/
def read (f : Stack → Except ε α) : StackM ε α := fun s => (f s, s)

theorem read_of_eq {f : Stack → Except ε α} {s : Stack} {r : Except ε α} (h : f s = r) :
    read f s = (r, s) := by
  rw [read, h]

/-- The computation with its failures put in other terms. -/
def mapError {ε' : Type} (f : ε → ε') (x : StackM ε α) : StackM ε' α := fun s =>
  ((x s).1.mapError f, (x s).2)

theorem mapError_of_ok {ε' : Type} {f : ε → ε'} {x : StackM ε α} {s s' : Stack} {a : α}
    (h : x s = (.ok a, s')) : mapError f x s = (.ok a, s') := by
  rw [mapError, h]
  rfl

theorem mapError_of_error {ε' : Type} {f : ε → ε'} {x : StackM ε α} {s s' : Stack} {e : ε}
    (h : x s = (.error e, s')) : mapError f x s = (.error (f e), s') := by
  rw [mapError, h]
  rfl

/-- The place of the top frame, which has to exist. -/
def topPlace (e : ε) : StackM ε Nat := read fun s =>
  match s.topPlace? with
  | none => .error e
  | some place => .ok place

/-- The number of places of the arena. -/
def places : StackM ε Nat := fun s => (.ok s.frames.size, s)

/-- The number of frames in use. -/
def inUse : StackM ε Nat := fun s => (.ok s.height, s)

/-- The frame at a place of the arena, if there is one. -/
def peek (place : Nat) : StackM ε (Option Scope) := fun s => (.ok (s.frames[place]?).join, s)

/-- Puts a frame, or none, at a place of the arena. -/
def write (place : Nat) (frame : Option Scope) : StackM Defect Unit := fun s =>
  if place < s.frames.size then
    (.ok (), { s with frames := s.frames.setIfInBounds place frame })
  else (.error .outOfBounds, s)

/-- Gives the arena `n` places, those that it gains without a frame. -/
def resize (n : Nat) : StackM Defect Unit := fun s =>
  if n ≤ s.room then
    (.ok (), { s with
      frames := s.frames.extract 0 n ++ Array.replicate (n - s.frames.size) none })
  else (.error .outOfBounds, s)

/-- Gives the arena one more place, with a frame that the top frame encloses. -/
def append (scope : Scope) : StackM Defect Unit := fun s =>
  (.ok (), { s with
    capacity := s.nextCapacity
    frames := s.frames.push (some { scope with parent := s.topPlace? }) })

/-- Sets the number of frames in use. -/
def setHeight (n : Nat) : StackM Defect Unit := fun s => (.ok (), { s with height := n })

/-- Takes the frames out of `n` places, from the given one on. -/
def vacate (place : Nat) : (n : Nat) → StackM Defect Unit
  | 0 => pure ()
  | n + 1 => do
    write place none
    vacate (place + 1) n

end StackM

namespace Stack

open StackM

/-- Puts a frame on top, enclosed by the frame below it.  The arena has to end with the top. -/
def push (scope : Scope) : StackM Defect Unit := do
  let size ← places
  let height ← inUse
  if size = height then
    append scope
    setHeight (height + 1)
  else throw (.corruptStack ((height : Int) - 1) size)

/-- Puts an empty frame with the given name on top. -/
def pushNamed (name : Bytes) : StackM Defect Unit := push (Scope.named name)

/-- Takes the top frame away. -/
def pop : StackM Failure (Option Scope) := do
  let place ← topPlace .underflow
  let frame ← peek place
  mapError .defect do
    write place none
    resize place
    setHeight place
  return frame

/-- Takes the top frame away unless it is global. -/
def popScope : StackM Failure Unit := do
  let scope ← read (get · 0)
  if scope.isGlobal then throw .popGlobal
  else
    let _ ← pop
    return ()

/-- Keeps the lowest `n` frames.  A number above the height, within the room reserved, adds places
without a frame. -/
def truncate (n : Int) : StackM Defect Unit :=
  if n < 0 then throw .outOfBounds
  else do
    vacate n.toNat ((← places) - n.toNat)
    resize n.toNat
    setHeight n.toNat

/-- Binds a symbol in the frame at a place. -/
def bindAt (place : Nat) (sym : Symbol) (v : Value) : StackM Defect Unit := do
  let scope ← read (frameAt · place)
  write place (some (scope.bind sym v))

/-- Binds a symbol in the top frame. -/
def bind (sym : Symbol) (v : Value) : StackM Defect Unit := do
  let place ← topPlace .underflow
  bindAt place sym v

end Stack

end SpanLisp
