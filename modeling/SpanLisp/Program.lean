import SpanLisp.Repl
import SpanLisp.Settings.Check

/-!
# The program

`Program.run` is the whole program in any monad with a host: it reads the command line and settles
the settings, and then evaluates an expression, runs a script or holds a dialogue.  It gives the
exit code.
-/

namespace SpanLisp.Program

variable {m : Type → Type} [Monad m] [Host m]

/-- How much is reported: everything if the work is traced. -/
def verbosity (s : Settings) : Int := if s.trace ∧ s.verbosity < 4 then 4 else s.verbosity

/-- Begins a session and reports it. -/
def startSession (s : Settings) : m Session := do
  let reply := Session.start (← Host.freshId) s.options
  Repl.logAll reply.events
  return reply.session

/-- Evaluates an expression and gives the exit code. -/
def runCommand (r : Repl) (command : Bytes) : m UInt32 := do
  let reply := r.session.evalLine command
  Repl.logAll reply.events
  match reply.result with
  | .error f =>
    Host.printError (Diagnostic.shown (Diagnostic.ofFault command f))
    return 1
  | .ok v =>
    (r.withSession reply.session).printValue v
    return 0

/-- Does what the settings and the arguments ask for. -/
def perform (build : Build) (s : Settings) (args : List Bytes) : m UInt32 := do
  Host.configureLog (verbosity s) s.logFile
  let r : Repl := { session := ← startSession s, settings := s }
  if s.command ≠ [] then runCommand r s.command
  else
    let (outcome, r) ← r.runArgs args
    if !outcome.succeeded ∧ s.exitOnFailure then return 255
    if outcome.wantsDialogue then
      let _ ← r.run build
    return 0

/-- The contents of the settings file that a command line names. -/
def readSettingsFile (c : CommandLine) : m (Except Files.Failure Bytes) :=
  if c.settings.configFile = [] then pure (.ok []) else Host.readFile c.settings.configFile

/-- Settles the settings. -/
def resolve (c : CommandLine) : m (Settings × Option Settings.Failure) := do
  let contents ← readSettingsFile c
  return c.resolve .flat contents (← Host.home)

/-- The whole program. -/
def run (build : Build) (args : List Bytes) : m UInt32 := do
  match CommandLine.parse args with
  | (_, some .helpRequested) =>
    Host.printError Flag.usage
    return 0
  | (_, some e) =>
    Host.printError (e.message ++ utf8 "\n" ++ Flag.usage)
    return 2
  | (c, none) =>
    match ← resolve c with
    | (_, some e) =>
      Host.printError (utf8 "caret command line error: '" ++ e.message ++ utf8 "'\n")
      Host.print (utf8 "caret command line help:\n")
      Host.printError Flag.listing
      return 1
    | (s, none) => perform build s c.args

end SpanLisp.Program
