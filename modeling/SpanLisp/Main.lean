import SpanLisp.Program

/-!
# The command line program

`Console` is the host of a terminal: standard input and output and the files of the machine.
`main` runs the program there.
-/

namespace SpanLisp

/-- The state of a terminal. -/
structure Console where
  /-- The input read but not yet taken. -/
  pending : IO.Ref Bytes
  /-- How much is reported. -/
  verbosity : IO.Ref Int
  /-- The file that reports go to, empty for the error output. -/
  logFile : IO.Ref Bytes

namespace Console

/-- Computations at a terminal. -/
abbrev Run := ReaderT Console IO

/-- The bytes of a text as an array. -/
def pack (t : Bytes) : ByteArray := ⟨t.toArray⟩

/-- A text as a string; bytes outside UTF-8 are replaced. -/
def text (t : Bytes) : String :=
  match String.fromUTF8? (pack t) with
  | some s => s
  | none => String.ofList ((Utf8.runes t).map Rune.char)

/-- Why a file operation failed. -/
def reasonOf : IO.Error → Files.Reason
  | .inappropriateType _ code _ => if code = 20 then .notDirectory else .isDirectory
  | .invalidArgument _ code _ => if code = 36 then .nameTooLong else .invalid
  | _ => .missing

/-- Runs a file operation.  A directory can be opened but not read. -/
def attempt {α : Type} (reading : Bool) (path : Bytes) (x : IO α) :
    IO (Except Files.Failure α) := do
  match ← x.toBaseIO with
  | .ok a => return .ok a
  | .error e =>
    let reason := reasonOf e
    return .error ⟨if reading && reason = .isDirectory then "read" else "open", path, reason⟩

/-- Reads up to a line feed or to the end of the input. -/
partial def fill (stream : IO.FS.Stream) (taken : Bytes) : IO Bytes := do
  let next := (← stream.read 1).data.toList
  match next with
  | [] => return taken.reverse
  | b :: _ => if b = Bytes.lineFeed then return (b :: taken).reverse else fill stream (b :: taken)

/-- The word for a level of reports. -/
def levelText : Event.Level → Bytes
  | .warning => utf8 "WARNING"
  | .info => utf8 "INFO"
  | .debug => utf8 "DEBUG"

/-- Writes a report. -/
def report (c : Console) (e : Event) : IO Unit := do
  let line := levelText e.level ++ utf8 " [caret] " ++ e.text ++ utf8 "\n"
  let path ← c.logFile.get
  if path.isEmpty then (← IO.getStderr).write (pack line)
  else
    let file ← IO.FS.Handle.mk (text path) .append
    file.write (pack line)

/-- A random identifier, marked as one. -/
def randomId : IO Bytes := do
  let bytes := (← IO.getRandomBytes 16).data.toList
  let marked := bytes.mapIdx fun i b =>
    if i = 6 then (b &&& 0x0f) ||| 0x40 else if i = 8 then (b &&& 0x3f) ||| 0x80 else b
  return Uuid.text marked

/-- Repeats a step until it says to stop. -/
partial def repeatStep {σ : Type} (step : σ → Run (Bool × σ)) (s : σ) : Run σ := do
  let (goOn, s') ← step s
  if goOn then repeatStep step s' else return s'

instance : Host Run where
  print t := do
    let out ← IO.getStdout
    out.write (pack t)
    out.flush
  printError t := do (← IO.getStderr).write (pack t)
  note t := do (← IO.getStdout).write (pack t)
  log e := do
    let c ← read
    if e.isHeard (← c.verbosity.get) then c.report e
  configureLog verbosity path := do
    let c ← read
    c.verbosity.set verbosity
    c.logFile.set path
  readFile path :=
    attempt true path do return (← IO.FS.readBinFile (text path)).data.toList
  createFile path contents :=
    attempt false path (IO.FS.writeBinFile (text path) (pack contents))
  readLine mode := do
    let c ← read
    let old ← c.pending.get
    let input ← if old.contains Bytes.lineFeed then pure old
      else do pure (old ++ (← fill (← IO.getStdin) []))
    let r := mode.take input
    c.pending.set r.2
    return r.1
  -- the terminal hands a line over when it is complete
  suggest _ := pure ()
  freshId := randomId
  home := do return utf8 ((← IO.getEnv "HOME").getD "")
  loop := repeatStep

end Console

end SpanLisp

open SpanLisp in
/-- Runs the program with the arguments of the command line. -/
def main (args : List String) : IO UInt32 := do
  let console : Console :=
    ⟨← IO.mkRef [], ← IO.mkRef 0, ← IO.mkRef []⟩
  (Program.run {} (args.map utf8) : Console.Run UInt32).run console
