import SpanLisp.Event
import SpanLisp.Files
import SpanLisp.Input.Line

/-!
# The host

A `Host` is what the program needs of its surroundings: outputs, reports, files and lines of input.
The program is written for any monad with a host.  `World` is a host without effects: a value that
holds files, the input to come and everything said so far.
-/

namespace SpanLisp

/-- How lines are taken from the input. -/
inductive LineMode where
  /-- A line at a time, whatever its length. -/
  | whole
  /-- A line that fills the buffer comes in pieces. -/
  | pieces
  deriving DecidableEq, Repr

/-- Takes a line off the front of the input. -/
def LineMode.take : LineMode → Bytes → Option Bytes × Bytes
  | whole => Line.joined
  | pieces => Line.single

/-- What the program needs of its surroundings. -/
class Host (m : Type → Type) where
  /-- Writes to the output. -/
  print : Bytes → m Unit
  /-- Writes to the error output. -/
  printError : Bytes → m Unit
  /-- Writes a remark on the program's work. -/
  note : Bytes → m Unit
  /-- Reports an event. -/
  log : Event → m Unit
  /-- Sets how much is reported, and the file that reports go to. -/
  configureLog : (verbosity : Int) → (path : Bytes) → m Unit
  /-- The contents of a file. -/
  readFile : Bytes → m (Except Files.Failure Bytes)
  /-- Makes a file with the given contents, or replaces those of a file that is there. -/
  createFile : (path contents : Bytes) → m (Except Files.Failure Unit)
  /-- The next line of the input. -/
  readLine : LineMode → m (Option Bytes)
  /-- Sets what the user is offered for a line begun. -/
  suggest : (Bytes → List Bytes) → m Unit
  /-- A new session identifier. -/
  freshId : m Bytes
  /-- The home directory, empty if there is none. -/
  home : m Bytes
  /-- Repeats a step that reads a line, until it says to stop. -/
  loop : {σ : Type} → (σ → m (Bool × σ)) → σ → m σ

/-- Surroundings without effects. -/
structure World where
  /-- The files. -/
  files : Files := {}
  /-- The home directory, empty if there is none. -/
  home : Bytes := []
  /-- The input to come. -/
  input : Bytes := []
  /-- What the user is offered for a line begun. -/
  suggestions : Bytes → List Bytes := fun _ => []
  /-- The identifier of the next session. -/
  nextId : Bytes := []
  /-- Do remarks have a channel of their own, apart from the output? -/
  notesApart : Bool := false
  /-- How much is reported. -/
  verbosity : Int := 0
  /-- What was written to the output, last first. -/
  printed : List Bytes := []
  /-- What was written to the error output, last first. -/
  printedErrors : List Bytes := []
  /-- The remarks in their own channel, last first. -/
  notes : List Bytes := []
  /-- The events that the verbosity let through, last first. -/
  events : List Event := []
  /-- How reporting was set, last first. -/
  logSetups : List (Int × Bytes) := []

namespace World

/-- All that was written to the output. -/
def output (w : World) : Bytes := w.printed.reverse.flatten

/-- All that was written to the error output. -/
def errorOutput (w : World) : Bytes := w.printedErrors.reverse.flatten

/-- Repeats a step until it says to stop, at most `n` times. -/
def iterate {σ : Type} (step : σ → StateM World (Bool × σ)) : (n : Nat) → σ → StateM World σ
  | 0, s => pure s
  | n + 1, s => do
    let (goOn, s') ← step s
    if goOn then iterate step n s' else pure s'

instance : Host (StateM World) where
  print t := modify fun w => { w with printed := t :: w.printed }
  printError t := modify fun w => { w with printedErrors := t :: w.printedErrors }
  note t := modify fun w =>
    if w.notesApart then { w with notes := t :: w.notes } else { w with printed := t :: w.printed }
  log e := modify fun w =>
    if e.isHeard w.verbosity then { w with events := e :: w.events } else w
  configureLog verbosity path := modify fun w =>
    { w with verbosity := verbosity, logSetups := (verbosity, path) :: w.logSetups }
  readFile path := do return (← get).files.read path
  createFile path contents := do
    match (← get).files.create path contents with
    | .error e => return .error e
    | .ok files =>
      modify fun w => { w with files := files }
      return .ok ()
  readLine mode := do
    let r := mode.take (← get).input
    modify fun w => { w with input := r.2 }
    return r.1
  suggest f := modify fun w => { w with suggestions := f }
  freshId := do return (← get).nextId
  home := do return (← get).home
  -- every step takes at least a byte of the input, or is the last one
  loop step s := do iterate step ((← get).input.length + 1) s

end World

end SpanLisp
