import SpanLisp.Eval

/-!
# Settings

What can be chosen when the program starts.
-/

namespace SpanLisp

/-- What can be chosen when the program starts. -/
structure Settings where
  /-- An expression to evaluate instead of anything else. -/
  command : Bytes := []
  /-- Does a script that fails end the program with a failure? -/
  exitOnFailure : Bool := false
  /-- Does a dialogue follow the script? -/
  replAfterScript : Bool := false
  /-- Is the greeting left out? -/
  quiet : Bool := false
  /-- Are definitions and frames reported? -/
  trace : Bool := false
  /-- Is the syntax tree of every line shown? -/
  dump : Bool := false
  /-- Are values shown as JSON? -/
  json : Bool := false
  /-- The depth limit; a negative one means no limit. -/
  maxDepth : Int := 10000
  /-- How much is reported, from 0 to 4. -/
  verbosity : Int := 0
  /-- The file that reports go to; without a name they go to the error output. -/
  logFile : Bytes := []
  /-- The name of the format of snapshots. -/
  snapshotFormat : Bytes := utf8 "msgpack"
  /-- The file with further settings. -/
  configFile : Bytes := []
  /-- Are lines read as they come, without history? -/
  plainInput : Bool := false
  /-- What invites the next line. -/
  prompt : Bytes := []
  /-- The file that keeps the history of lines. -/
  historyFile : Bytes := []
  deriving DecidableEq, Repr

namespace Settings

/-- The depth limit of parsing and evaluation, where 0 means no limit. -/
def limit (s : Settings) : Nat := s.maxDepth.toNat

/-- What evaluations need of the settings. -/
def options (s : Settings) : EvalOptions := { limit := s.limit, trace := s.trace }

end Settings

end SpanLisp
