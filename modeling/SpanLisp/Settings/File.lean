import SpanLisp.Settings

/-!
# Settings in a file

A settings file holds keys with values.  `FileSettings` is what it says: a text that is empty and a
value that is absent say nothing.  `Settings.withFile` takes the file's settings over, except those
that the command line gives.
-/

namespace SpanLisp

/-- What a settings file says. -/
structure FileSettings where
  /-- What invites the next line. -/
  prompt : Bytes := []
  /-- The file that keeps the history of lines. -/
  historyFile : Bytes := []
  /-- Are lines read as they come, without history? -/
  plainInput : Option Bool := none
  /-- Is the greeting left out? -/
  quiet : Option Bool := none
  /-- Are definitions and frames reported? -/
  trace : Option Bool := none
  /-- Are values shown as JSON? -/
  json : Option Bool := none
  /-- Does a script that fails end the program with a failure? -/
  exitOnFailure : Option Bool := none
  /-- Does a dialogue follow the script? -/
  replAfterScript : Option Bool := none
  /-- The depth limit. -/
  maxDepth : Option Int := none
  /-- How much is reported. -/
  verbosity : Option Int := none
  /-- The file that reports go to. -/
  logFile : Bytes := []
  /-- The name of the format of snapshots. -/
  snapshotFormat : Bytes := []
  deriving DecidableEq, Repr

namespace FileSettings

/-- The setting that a key of the file is for. -/
inductive Slot where
  /-- A setting that is on or off. -/
  | switch (set : FileSettings → Bool → FileSettings)
  /-- A number. -/
  | number (set : FileSettings → Int → FileSettings)
  /-- A text. -/
  | text (set : FileSettings → Bytes → FileSettings)

/-- The keys of a settings file. -/
def keys : List (String × Slot) :=
  [("prompt", .text fun f t => { f with prompt := t }),
    ("history-file", .text fun f t => { f with historyFile := t }),
    ("noliner", .switch fun f b => { f with plainInput := some b }),
    ("quiet", .switch fun f b => { f with quiet := some b }),
    ("trace", .switch fun f b => { f with trace := some b }),
    ("json", .switch fun f b => { f with json := some b }),
    ("exitonfail", .switch fun f b => { f with exitOnFailure := some b }),
    ("afterscriptrepl", .switch fun f b => { f with replAfterScript := some b }),
    ("maxdepth", .number fun f n => { f with maxDepth := some n }),
    ("verbosity", .number fun f n => { f with verbosity := some n }),
    ("log", .text fun f t => { f with logFile := t }),
    ("snapshot-format", .text fun f t => { f with snapshotFormat := t })]

/-- The setting that a key is for, if any. -/
def slot? (key : Bytes) : Option Slot := (keys.find? (utf8 ·.1 = key)).map (·.2)

/-- Takes over the fields of a file one by one; a field that its setting refuses ends it. -/
def fill {α : Type} (assign : FileSettings → Bytes → α → Option FileSettings) :
    FileSettings → List (Bytes × α) → Option FileSettings
  | f, [] => some f
  | f, (key, x) :: rest =>
    match assign f key x with
    | none => none
    | some f' => fill assign f' rest

/-- Does any key come twice? -/
def hasRepeat {α : Type} : List (Bytes × α) → Bool
  | [] => false
  | (key, _) :: rest => rest.any (·.1 = key) || hasRepeat rest

end FileSettings

/-- The settings with those of a file, except the ones given on the command line. -/
def Settings.withFile (s : Settings) (given : List Bytes) (f : FileSettings) : Settings :=
  let isOpen (flag : String) : Bool := !given.contains (utf8 flag)
  let text (flag : String) (new old : Bytes) : Bytes := if new ≠ [] ∧ isOpen flag then new else old
  let pick {α : Type} (flag : String) (new : Option α) (old : α) : α :=
    if isOpen flag then new.getD old else old
  { s with
    prompt := text "prompt" f.prompt s.prompt
    historyFile := text "history" f.historyFile s.historyFile
    plainInput := pick "noliner" f.plainInput s.plainInput
    quiet := pick "quiet" f.quiet s.quiet
    trace := pick "trace" f.trace s.trace
    json := pick "json" f.json s.json
    exitOnFailure := pick "exitonfail" f.exitOnFailure s.exitOnFailure
    replAfterScript := pick "afterscriptrepl" f.replAfterScript s.replAfterScript
    maxDepth := pick "maxdepth" f.maxDepth s.maxDepth
    verbosity := pick "v" f.verbosity s.verbosity
    logFile := text "log" f.logFile s.logFile
    snapshotFormat := text "snapshot-format" f.snapshotFormat s.snapshotFormat }

end SpanLisp
