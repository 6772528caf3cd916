import SpanLisp.Builtin

/-!
# Events

What a session reports about its work, each event with a level and a wording.  `Event.isHeard`
tells which events a verbosity lets through.
-/

namespace SpanLisp

/-- How important an event is. -/
inductive Event.Level where
  /-- Something did not work. -/
  | warning
  /-- Something was done. -/
  | info
  /-- A detail. -/
  | debug
  deriving DecidableEq, Repr

/-- Something worth reporting. -/
inductive Event where
  /-- A session began. -/
  | sessionStarted (id : Bytes) (builtins : Nat)
  /-- A builtin did not apply to its arguments. -/
  | callRefused (name : Bytes) (span : Span) (why : Builtin.Refusal)
  /-- A name was bound by `def!`. -/
  | defined (name kind : Bytes) (frame : Int)
  /-- A frame was pushed by `let*`. -/
  | frameEntered (frame : Int)
  /-- A snapshot was written. -/
  | saved (count : Nat) (id format : Bytes)
  /-- A snapshot was read. -/
  | loaded (count : Nat) (origin : Bytes)
  /-- A script ran to its end. -/
  | scriptFinished (path value : Bytes)
  /-- The history could not be written. -/
  | historyLost (reason : Bytes)
  deriving DecidableEq, Repr

namespace Event

/-- The level of an event. -/
def level : Event → Level
  | historyLost _ => .warning
  | saved .. | loaded .. => .info
  | sessionStarted .. | callRefused .. | defined .. | frameEntered _ | scriptFinished .. => .debug

/-- What an event reads like. -/
def text : Event → Bytes
  | sessionStarted id builtins =>
    utf8 "session " ++ id ++ utf8 " started with " ++ Decimal.ofNat builtins ++ utf8 " builtins"
  | callRefused name span why => name ++ utf8 " at " ++ span.text ++ utf8 ": " ++ why.message
  | defined name kind frame =>
    utf8 "def! " ++ name ++ utf8 " (" ++ kind ++ utf8 ") in frame " ++ Decimal.ofInt frame
  | frameEntered frame => utf8 "let* pushed frame " ++ Decimal.ofInt frame
  | saved count id format =>
    utf8 "saved " ++ Decimal.ofNat count ++ utf8 " binding(s) from session " ++ id ++ utf8 " as " ++
      format
  | loaded count origin =>
    utf8 "loaded " ++ Decimal.ofNat count ++ utf8 " binding(s) from session " ++ origin
  | scriptFinished path value => utf8 "script " ++ path ++ utf8 " finished with " ++ value
  | historyLost reason => utf8 "error writing history file: " ++ reason

/-- The verbosity from which on a level is heard. -/
def Level.threshold : Level → Int
  | warning => 1
  | info => 3
  | debug => 4

/-- Does a verbosity let the event through? -/
def isHeard (verbosity : Int) (e : Event) : Bool := e.level.threshold ≤ verbosity

end Event

end SpanLisp
