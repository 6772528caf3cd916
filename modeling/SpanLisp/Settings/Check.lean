import SpanLisp.Files
import SpanLisp.Settings.Flag
import SpanLisp.Settings.Toml
import SpanLisp.Settings.Yaml
import SpanLisp.Snapshot

/-!
# Checking settings

`Settings.load` reads a settings file in the format that its name ends in, and `Settings.complete`
fills what is still empty and refuses what makes no sense.  `CommandLine.resolve` does both.  The
readers of the formats are given to it (`Settings.Readers`); the program has those of flat files.
-/

namespace SpanLisp

/-- Why settings cannot be used. -/
inductive Settings.Failure where
  /-- The name of the settings file tells no format. -/
  | unknownFileFormat (path : Bytes)
  /-- The settings file cannot be read. -/
  | unreadable (path : Bytes) (e : Files.Failure)
  /-- The settings file does not follow its format. -/
  | unparsable (path : Bytes)
  /-- There is no such format of snapshots. -/
  | unknownSnapshotFormat (name : Bytes)
  /-- There is no such verbosity. -/
  | badVerbosity (n : Int)
  deriving DecidableEq, Repr

namespace Settings

/-- What a failure reads like. -/
def Failure.message : Failure → Bytes
  | unknownFileFormat path => path ++ utf8 ": config file must end in .toml, .yaml or .yml"
  | unreadable path e => utf8 "cannot read " ++ path ++ utf8 ": " ++ e.message
  | unparsable path => utf8 "parse error in " ++ path
  | unknownSnapshotFormat name => Snapshot.Format.unknownNameText name
  | badVerbosity n => utf8 "verbosity must be between 0 and 4, got " ++ Decimal.ofInt n

/-- What settings files say, by format. -/
structure Readers where
  /-- Reads a TOML file, unless it does not follow its format. -/
  toml : Bytes → Option FileSettings
  /-- Reads a YAML file, unless it does not follow its format. -/
  yaml : Bytes → Option FileSettings

/-- The readers of flat files. -/
def Readers.flat : Readers := ⟨Toml.settings?, Yaml.settings?⟩

/-- What a settings file says. -/
def load (readers : Readers) (path : Bytes) (contents : Except Files.Failure Bytes) :
    Except Failure FileSettings :=
  let extension := Bytes.lower (Path.extension path)
  let orUnparsable (r : Option FileSettings) : Except Failure FileSettings :=
    match r with
    | some f => .ok f
    | none => .error (.unparsable path)
  if extension = utf8 ".toml" then orUnparsable (contents.toOption.bind readers.toml)
  else if extension = utf8 ".yaml" ∨ extension = utf8 ".yml" then
    match contents with
    | .error e => .error (.unreadable path e)
    | .ok t => orUnparsable (readers.yaml t)
  else .error (.unknownFileFormat path)

/-- The name of the history file in the home directory. -/
def historyName : Bytes := utf8 ".carethist"

/-- Fills the prompt, the depth limit and the format where they are empty. -/
def withDefaults (s : Settings) : Settings :=
  { s with
    prompt := if s.prompt = [] then utf8 "caret> " else s.prompt
    maxDepth := if s.maxDepth = 0 then 10000 else s.maxDepth
    snapshotFormat := if s.snapshotFormat = [] then utf8 "msgpack" else s.snapshotFormat }

/-- Puts the history into the home directory if it is nowhere else. -/
def withHistory (s : Settings) (home : Bytes) : Settings :=
  { s with
    historyFile :=
      if s.historyFile = [] ∧ home ≠ [] then Path.join home historyName else s.historyFile }

/-- Fills what is empty and refuses what makes no sense. -/
def complete (s : Settings) (home : Bytes) : Settings × Option Failure :=
  let s := s.withDefaults
  if (Snapshot.Format.ofName? s.snapshotFormat).isNone then
    (s, some (.unknownSnapshotFormat s.snapshotFormat))
  else if s.verbosity < 0 ∨ 4 < s.verbosity then (s, some (.badVerbosity s.verbosity))
  else (s.withHistory home, none)

end Settings

/-- The settings that a command line and the settings file it names come to.  `contents` are those
of that file. -/
def CommandLine.resolve (c : CommandLine) (readers : Settings.Readers)
    (contents : Except Files.Failure Bytes) (home : Bytes) : Settings × Option Settings.Failure :=
  if c.settings.configFile = [] then c.settings.complete home
  else match Settings.load readers c.settings.configFile contents with
  | .error e => (c.settings, some e)
  | .ok f => (c.settings.withFile c.given f).complete home

end SpanLisp
