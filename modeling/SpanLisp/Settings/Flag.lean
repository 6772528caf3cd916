import SpanLisp.Settings
import SpanLisp.Text.Integer
import SpanLisp.Text.Quoted

/-!
# Flags of the command line

A `Flag` is a name on the command line that changes one of the settings (`Flag.Slot`).
`CommandLine.parse` reads the flags up to the first argument that is none, or to the first mistake,
and keeps the changes made on the way.  `Flag.usage` lists all flags.
-/

namespace SpanLisp

/-- The setting that a flag changes. -/
inductive Flag.Slot where
  /-- A setting that is on or off. -/
  | switch (get : Settings → Bool) (set : Settings → Bool → Settings)
  /-- A number. -/
  | number (get : Settings → Int) (set : Settings → Int → Settings)
  /-- A text. -/
  | text (get : Settings → Bytes) (set : Settings → Bytes → Settings)

/-- A flag of the command line. -/
structure Flag where
  /-- Its name. -/
  name : String
  /-- What it is for. -/
  purpose : String
  /-- The setting that it changes. -/
  slot : Flag.Slot

namespace Flag

/-- All flags, by name. -/
def all : List Flag :=
  [⟨"afterscriptrepl", "start the repl after running the script",
      .switch Settings.replAfterScript fun s b => { s with replAfterScript := b }⟩,
    ⟨"c", "expression to evaluate", .text Settings.command fun s t => { s with command := t }⟩,
    ⟨"config", "read settings from this .toml or .yaml file",
      .text Settings.configFile fun s t => { s with configFile := t }⟩,
    ⟨"dump", "dump the syntax tree of every line before evaluating it",
      .switch Settings.dump fun s b => { s with dump := b }⟩,
    ⟨"exitonfail", "exit -1 when the script fails",
      .switch Settings.exitOnFailure fun s b => { s with exitOnFailure := b }⟩,
    ⟨"history", "repl history file (default ~/.carethist)",
      .text Settings.historyFile fun s t => { s with historyFile := t }⟩,
    ⟨"json", "print results as JSON", .switch Settings.json fun s b => { s with json := b }⟩,
    ⟨"log", "log to this file instead of stderr",
      .text Settings.logFile fun s t => { s with logFile := t }⟩,
    ⟨"maxdepth", "maximum nesting depth; negative for unlimited",
      .number Settings.maxDepth fun s n => { s with maxDepth := n }⟩,
    ⟨"noliner", "read plain lines from stdin; no line editing",
      .switch Settings.plainInput fun s b => { s with plainInput := b }⟩,
    ⟨"prompt", "repl prompt", .text Settings.prompt fun s t => { s with prompt := t }⟩,
    ⟨"quiet", "start repl without printing the version banner",
      .switch Settings.quiet fun s b => { s with quiet := b }⟩,
    ⟨"snapshot-format", "format for .save: msgpack or cbor",
      .text Settings.snapshotFormat fun s t => { s with snapshotFormat := t }⟩,
    ⟨"trace", "log def! and let* activity at debug level",
      .switch Settings.trace fun s b => { s with trace := b }⟩,
    ⟨"v", "log verbosity (0-4)", .number Settings.verbosity fun s n => { s with verbosity := n }⟩]

/-- The flag with a given name. -/
def find? (name : Bytes) : Option Flag := all.find? (utf8 ·.name = name)

/-! ### Usage -/

/-- The kind of value that a flag takes, with a blank before it. -/
def Slot.typeText : Slot → Bytes
  | switch .. => []
  | number .. => utf8 " int"
  | text .. => utf8 " string"

/-- The note on the setting of a flag that is not given, if it is not empty. -/
def Slot.defaultText (slot : Slot) : Bytes :=
  let note (t : Bytes) : Bytes := utf8 " (default " ++ t ++ utf8 ")"
  match slot with
  | switch get _ => if get {} then note (utf8 "true") else []
  | number get _ => if get {} = 0 then [] else note (Decimal.ofInt (get {}))
  | text get _ => if get {} = [] then [] else note (Quoted.encode (get {}))

/-- The entry of a flag in the list of flags. -/
def entry (f : Flag) : Bytes :=
  utf8 "  -" ++ utf8 f.name ++ f.slot.typeText ++ utf8 "\n    \t" ++ utf8 f.purpose ++
    f.slot.defaultText ++ utf8 "\n"

/-- The list of flags. -/
def listing : Bytes := all.flatMap entry

/-- The list of flags under its heading. -/
def usage : Bytes := utf8 "Usage of caret:\n" ++ listing

/-! ### Changing settings -/

/-- The truth value that a text spells. -/
def switch? (t : Bytes) : Option Bool :=
  if ["1", "t", "T", "TRUE", "true", "True"].any (utf8 · = t) then some true
  else if ["0", "f", "F", "FALSE", "false", "False"].any (utf8 · = t) then some false
  else none

/-- Why a command line cannot be read. -/
inductive Failure where
  /-- The list of flags was asked for. -/
  | helpRequested
  /-- An argument that is neither a flag nor a value. -/
  | badSyntax (arg : Bytes)
  /-- No flag has this name. -/
  | undefined (name : Bytes)
  /-- The value of a flag is missing. -/
  | needsArgument (name : Bytes)
  /-- A value is no truth value. -/
  | badSwitch (value name : Bytes)
  /-- A value is no number. -/
  | badNumber (value name : Bytes)
  /-- A number is too large. -/
  | numberOutOfRange (value name : Bytes)
  deriving DecidableEq, Repr

/-- What a failure reads like. -/
def Failure.message : Failure → Bytes
  | helpRequested => utf8 "flag: help requested"
  | badSyntax arg => utf8 "bad flag syntax: " ++ arg
  | undefined name => utf8 "flag provided but not defined: -" ++ name
  | needsArgument name => utf8 "flag needs an argument: -" ++ name
  | badSwitch value name =>
    utf8 "invalid boolean value " ++ Quoted.encode value ++ utf8 " for -" ++ name ++
      utf8 ": parse error"
  | badNumber value name =>
    utf8 "invalid value " ++ Quoted.encode value ++ utf8 " for flag -" ++ name ++
      utf8 ": parse error"
  | numberOutOfRange value name =>
    utf8 "invalid value " ++ Quoted.encode value ++ utf8 " for flag -" ++ name ++
      utf8 ": value out of range"

/-- Changes a setting to the value that a text spells.  A text that spells none leaves the setting
empty, or at the nearest number. -/
def Slot.assign (slot : Slot) (name value : Bytes) (s : Settings) : Settings × Option Failure :=
  match slot with
  | switch _ set =>
    match switch? value with
    | some b => (set s b, none)
    | none => (set s false, some (.badSwitch value name))
  | number _ set =>
    match Integer.parse value with
    | .ok n => (set s n, none)
    | .error .malformed => (set s 0, some (.badNumber value name))
    | .error (.outOfRange n) => (set s n, some (.numberOutOfRange value name))
  | text _ set => (set s value, none)

end Flag

/-! ### The command line -/

/-- What a command line says. -/
structure CommandLine where
  /-- The settings. -/
  settings : Settings := {}
  /-- The names of the flags given. -/
  given : List Bytes := []
  /-- The arguments after the flags. -/
  args : List Bytes := []
  deriving DecidableEq, Repr

namespace CommandLine

/-- How an argument reads. -/
inductive Shape where
  /-- The first argument that is no flag. -/
  | plain
  /-- The mark of the end of the flags. -/
  | terminator
  /-- Neither. -/
  | malformed
  /-- A flag, with a value behind an equals sign. -/
  | flag (name : Bytes) (value : Option Bytes)
  deriving DecidableEq, Repr

/-- How an argument reads: one or two dashes before the name of a flag. -/
def shape (arg : Bytes) : Shape :=
  let body (name : Bytes) : Shape := match name with
    | [] => .malformed
    | b :: bs =>
      if b = 0x2d ∨ b = 0x3d then .malformed
      else
        let r := Bytes.cut 0x3d bs
        .flag (b :: r.1) r.2
  match arg with
  | [0x2d, 0x2d] => .terminator
  | 0x2d :: 0x2d :: name => body name
  | [0x2d] => .plain
  | 0x2d :: name => body name
  | _ => .plain

/-- Changes the setting of a flag and remembers that the flag was given. -/
def assign (c : CommandLine) (f : Flag) (name value : Bytes) : CommandLine × Option Flag.Failure :=
  match f.slot.assign name value c.settings with
  | (s, none) => ({ c with settings := s, given := name :: c.given }, none)
  | (s, some e) => ({ c with settings := s }, some e)

/-- Reads flags up to the first argument that is none or to the first mistake. -/
def parseFrom (c : CommandLine) : List Bytes → CommandLine × Option Flag.Failure
  | [] => ({ c with args := [] }, none)
  | arg :: rest =>
    match shape arg with
    | .plain => ({ c with args := arg :: rest }, none)
    | .terminator => ({ c with args := rest }, none)
    | .malformed => ({ c with args := arg :: rest }, some (.badSyntax arg))
    | .flag name value =>
      match Flag.find? name with
      | none =>
        ({ c with args := rest },
          some (if name = utf8 "help" ∨ name = utf8 "h" then .helpRequested else .undefined name))
      | some f =>
        match f.slot, value, rest with
        | .switch .., value, rest =>
          match c.assign f name (value.getD (utf8 "true")) with
          | (c', none) => parseFrom c' rest
          | (c', some e) => ({ c' with args := rest }, some e)
        | _, some value, rest =>
          match c.assign f name value with
          | (c', none) => parseFrom c' rest
          | (c', some e) => ({ c' with args := rest }, some e)
        | _, none, value :: rest =>
          match c.assign f name value with
          | (c', none) => parseFrom c' rest
          | (c', some e) => ({ c' with args := rest }, some e)
        | _, none, [] => ({ c with args := [] }, some (.needsArgument name))

/-- Reads a command line. -/
def parse (args : List Bytes) : CommandLine × Option Flag.Failure := parseFrom {} args

end CommandLine

end SpanLisp
