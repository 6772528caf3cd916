import SpanLisp.Build
import SpanLisp.Diagnostic
import SpanLisp.Expr.Outline
import SpanLisp.Host
import SpanLisp.Input.Completion
import SpanLisp.Input.History
import SpanLisp.Json.Writer
import SpanLisp.Session
import SpanLisp.Settings

/-!
# The dialogue

A `Repl` reads lines, evaluates each as one expression and shows the value, or the mistake under the
line.  A line that starts with a dot may be a command (`Repl.Command`).  `Repl.handleLine` is one
line, `Repl.run` a dialogue, and `Repl.runScript` evaluates a file.
-/

namespace SpanLisp

/-- A dialogue. -/
structure Repl where
  /-- The session that lines are evaluated in. -/
  session : Session
  /-- The settings. -/
  settings : Settings := {}
  /-- Are remarks on the work wanted? -/
  verbose : Bool := false
  /-- What stands before a remark. -/
  noteLabel : Bytes := utf8 "repl.go:90"

/-- What a line that starts with a dot can ask for. -/
inductive Repl.Command where
  /-- Ends the dialogue. -/
  | quit
  /-- Lists the frames. -/
  | list (showGlobal : Bool)
  /-- Forgets the definitions. -/
  | clear
  /-- Turns remarks on or off. -/
  | verbose
  /-- Shows the syntax tree of a text. -/
  | tree (text : Bytes)
  /-- Shows the tokens of a text. -/
  | tokens (text : Bytes)
  /-- Saves the definitions to a file. -/
  | save (path : Bytes)
  /-- Loads definitions from a file. -/
  | load (path : Bytes)
  deriving DecidableEq, Repr

/-- The command that a line without blanks around it spells: a word, and perhaps an argument after a
space. -/
def Repl.Command.ofLine? (line : Bytes) : Option Repl.Command :=
  let (word, argument) := Bytes.cut 0x20 line
  let rest := Blank.trim (argument.getD [])
  if word = utf8 ".quit" then some .quit
  else if word = utf8 ".ls" then some (.list false)
  else if word = utf8 ".gls" then some (.list true)
  else if word = utf8 ".clear" then some .clear
  else if word = utf8 ".verb" then some .verbose
  else if word = utf8 ".ast" then some (.tree rest)
  else if word = utf8 ".tokens" then some (.tokens rest)
  else if word = utf8 ".save" then some (.save rest)
  else if word = utf8 ".load" then some (.load rest)
  else none

namespace Repl

variable {m : Type → Type} [Monad m] [Host m]

/-- Writes a line to the output. -/
def printLine (t : Bytes) : m Unit := Host.print (t ++ utf8 "\n")

/-- Writes an error message to the output. -/
def printError (message : Bytes) : m Unit := printLine (utf8 "error: " ++ message)

/-- Reports events in order. -/
def logAll (events : List Event) : m Unit := events.forM Host.log

/-- The dialogue with another session. -/
def withSession (r : Repl) (s : Session) : Repl := { r with session := s }

/-- Shows a value, as JSON if that is wanted. -/
def printValue (r : Repl) (v : Value) : m Unit :=
  let text := if r.settings.json then v.json r.session.names else v.display r.session.names
  match text with
  | .ok t => printLine t
  | .error d => printError d.message

/-- Makes a remark, if remarks are wanted. -/
def note (r : Repl) (text : Bytes) : m Unit :=
  if r.verbose then Host.note (r.noteLabel ++ utf8 " " ++ text) else pure ()

/-- A tree in canonical form, or the defect that keeps it from being printed. -/
def printed (source : Bytes) (e : Expr) : Bytes := Diagnostic.shown (e.print source)

/-- Evaluates a line and shows what comes of it. -/
def evalLine (r : Repl) (line : Bytes) : m Repl := do
  let (parsed, s) := r.session.parse line
  let r := r.withSession s
  match parsed with
  | .error e =>
    Host.print (Diagnostic.shown (Diagnostic.ofSyntaxError line e))
    return r
  | .ok e =>
    let kind := Diagnostic.shown (Expr.kindName e.kindCode)
    r.note (utf8 "parsed " ++ printed line e ++ utf8 " as " ++ kind ++ utf8 "\n")
    if r.settings.dump then Host.print e.outline
    let reply := r.session.eval line e
    let r := r.withSession reply.session
    logAll reply.events
    match reply.result with
    | .error f => Host.print (Diagnostic.shown (Diagnostic.ofFault line f))
    | .ok v => r.printValue v
    return r

/-- Shows the syntax tree of a text. -/
def showTree (r : Repl) (text : Bytes) : m Repl := do
  let (parsed, s) := r.session.parse text
  match parsed with
  | .error e => Host.print (Diagnostic.shown (Diagnostic.ofSyntaxError text e))
  | .ok e =>
    printLine (printed text e)
    Host.print e.outline
  return r.withSession s

/-- A token with its text, as listings show it. -/
def tokenLine (t : Token) : Bytes := t.label ++ utf8 " " ++ Quoted.encode t.text ++ utf8 "\n"

/-- Shows the tokens of a text. -/
def showTokens (text : Bytes) : m Unit := do
  let (toks, failure) := tokens text
  Host.print (toks.flatMap tokenLine)
  match failure with
  | some e => Host.print (Diagnostic.shown (Diagnostic.ofSyntaxError text e))
  | none => pure ()

/-- The number of definitions. -/
def definitions (r : Repl) : Nat := (r.session.userScope.toOption.map Scope.size).getD 0

/-- Saves the definitions to a file, which is emptied first. -/
def save (r : Repl) (path : Bytes) : m Repl := do
  if path.isEmpty then
    printLine (utf8 "provide a file path to save to.")
    return r
  match Snapshot.Format.ofName? r.settings.snapshotFormat with
  | none =>
    printError (Snapshot.Format.unknownNameText r.settings.snapshotFormat)
    return r
  | some format =>
    match ← Host.createFile path [] with
    | .error e =>
      printError e.message
      return r
    | .ok () =>
      let reply := r.session.save format
      let r := r.withSession reply.session
      match reply.result with
      | .error e => printError e.message
      | .ok bytes =>
        let _ ← Host.createFile path bytes
        logAll reply.events
        printLine (utf8 "saved " ++ Decimal.ofNat r.definitions ++ utf8 " binding(s) to " ++ path ++
          utf8 ".")
      return r

/-- Loads definitions from a file. -/
def load (r : Repl) (path : Bytes) : m Repl := do
  if path.isEmpty then
    printLine (utf8 "provide a file path to load from.")
    return r
  match ← Host.readFile path with
  | .error e =>
    printError e.message
    return r
  | .ok bytes =>
    let reply := r.session.load bytes
    logAll reply.events
    match reply.result with
    | .error e => printError e.message
    | .ok origin =>
      printLine (utf8 "loaded " ++ path ++ utf8 " (from session " ++ origin ++ utf8 ").")
    return r.withSession reply.session

/-- Carries out a command and tells whether the dialogue goes on. -/
def perform (r : Repl) : Command → m (Bool × Repl)
  | .quit => return (false, r)
  | .list showGlobal => do
    Host.print (Diagnostic.shown (r.session.listing showGlobal))
    return (true, r)
  | .clear => do
    let reply := r.session.clear
    match reply.result with
    | .ok () => printLine (utf8 "cleared user bindings.")
    | .error d => printError d.message
    return (true, r.withSession reply.session)
  | .verbose => do
    let r := { r with verbose := !r.verbose }
    printLine (utf8 "verbose: " ++ Expr.boolText r.verbose ++ utf8 ".")
    return (true, r)
  | .tree text => do return (true, ← r.showTree text)
  | .tokens text => do
    showTokens text
    return (true, r)
  | .save path => do return (true, ← r.save path)
  | .load path => do return (true, ← r.load path)

/-- Handles one line and tells whether the dialogue goes on. -/
def handleLine (r : Repl) (line : Bytes) : m (Bool × Repl) := do
  let trimmed := Blank.trim line
  if trimmed.isEmpty then return (true, r)
  match Command.ofLine? trimmed with
  | some command => r.perform command
  | none => return (true, ← r.evalLine line)

/-! ### Dialogues -/

/-- The greeting. -/
def greeting (build : Build) : Bytes :=
  utf8 "caret version " ++ build.version ++ utf8 "\n" ++
    utf8 "press tab to get completion suggestions. Ctrl-d to exit.\n"

/-- Invites a line, reads it and handles it. -/
def plainTurn (r : Repl) : m (Bool × Repl) := do
  Host.print r.settings.prompt
  match ← Host.readLine .whole with
  | none => return (false, r)
  | some line => r.handleLine line

/-- The history in a file, empty if the file cannot be read. -/
def readHistory (path : Bytes) : m History := do
  if path.isEmpty then return {}
  match ← Host.readFile path with
  | .ok t => return History.ofText t
  | .error _ => return {}

/-- Writes the history to a file. -/
def writeHistory (path : Bytes) (h : History) : m Unit := do
  if path.isEmpty then return
  match ← Host.createFile path h.text with
  | .ok () => return
  | .error e => Host.log (.historyLost e.message)

/-- Invites a line, reads it and remembers it. -/
def promptLine (prompt : Bytes) (h : History) : m (Option Bytes × History) := do
  Host.print prompt
  match ← Host.readLine .pieces with
  | none => return (none, h)
  | some line => return (some line, h.enter line)

/-- Invites a line, remembers it and handles it. -/
def historyTurn (s : Repl × History) : m (Bool × Repl × History) := do
  match ← promptLine s.1.settings.prompt s.2 with
  | (none, h) => return (false, s.1, h)
  | (some line, h) =>
    let (goOn, r) ← s.1.handleLine line
    return (goOn, r, h)

/-- A dialogue: greets, and handles lines until the input ends or the user quits. -/
def run (build : Build) (r : Repl) : m Repl := do
  if !r.settings.quiet then Host.print (greeting build)
  if r.settings.plainInput then Host.loop plainTurn r
  else
    Host.suggest Completion.ofLine
    let h ← readHistory r.settings.historyFile
    let (r, h) ← Host.loop historyTurn (r, h)
    writeHistory r.settings.historyFile h
    return r

/-- Evaluates every expression of a file and tells whether all went well. -/
def runScript (r : Repl) (path : Bytes) : m (Bool × Repl) := do
  match ← Host.readFile path with
  | .error e =>
    printLine e.message
    return (false, r)
  | .ok text =>
    let reply := r.session.evalScript text
    let r := r.withSession reply.session
    logAll reply.events
    match reply.result with
    | .error f =>
      Host.print (Diagnostic.shown (Diagnostic.ofFault text f))
      return (false, r)
    | .ok v =>
      Host.log (.scriptFinished path (Diagnostic.shown (v.display r.session.names)))
      return (true, r)

/-- What running the arguments comes to. -/
structure ArgsOutcome where
  /-- Does a dialogue follow? -/
  wantsDialogue : Bool
  /-- Did all go well? -/
  succeeded : Bool
  deriving DecidableEq, Repr

/-- Runs the script that the first argument names, if any. -/
def runArgs (r : Repl) (args : List Bytes) : m (ArgsOutcome × Repl) := do
  match args with
  | [] => return (⟨true, true⟩, r)
  | path :: _ =>
    let (ok, r) ← r.runScript path
    return (⟨r.settings.replAfterScript, ok⟩, r)

end Repl

end SpanLisp
