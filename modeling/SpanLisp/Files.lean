import SpanLisp.Path

/-!
# Files

`Files` is a small file system: files with their contents under paths, and the directories on the
way to them.  `Files.locate` follows a path from the working directory; `Files.read` and
`Files.create` are what opening a file for reading and for writing comes to.
-/

namespace SpanLisp

/-- Why a file cannot be opened or read. -/
inductive Files.Reason where
  /-- There is nothing at the path. -/
  | missing
  /-- There is a directory at the path. -/
  | isDirectory
  /-- The path leads through a file. -/
  | notDirectory
  /-- A step of the path is too long. -/
  | nameTooLong
  /-- The path holds a zero byte. -/
  | invalid
  deriving DecidableEq, Repr

/-- A file operation that failed. -/
structure Files.Failure where
  /-- What was tried. -/
  action : String
  /-- The path. -/
  path : Bytes
  /-- Why it failed. -/
  reason : Files.Reason
  deriving DecidableEq, Repr

/-- What a reason reads like. -/
def Files.Reason.message : Files.Reason → Bytes
  | missing => utf8 "no such file or directory"
  | isDirectory => utf8 "is a directory"
  | notDirectory => utf8 "not a directory"
  | nameTooLong => utf8 "file name too long"
  | invalid => utf8 "invalid argument"

/-- What a failure reads like. -/
def Files.Failure.message (e : Files.Failure) : Bytes :=
  utf8 e.action ++ utf8 " " ++ e.path ++ utf8 ": " ++ e.reason.message

/-- Where something is: the steps from the working directory, or from the root after a slash. -/
abbrev Location := List Bytes

/-- Files with their contents. -/
structure Files where
  /-- The files, each with its place. -/
  entries : List (Location × Bytes) := []
  deriving DecidableEq, Repr

namespace Files

/-- The root. -/
def rootLocation : Location := [[Path.slash]]

/-- The contents of the file at a place. -/
def file? (fs : Files) (loc : Location) : Option Bytes := fs.entries.lookup loc

/-- Is there a directory at a place?  Above the working directory there are only directories. -/
def isDirectory (fs : Files) (loc : Location) : Bool :=
  loc.all (· = utf8 "..") || loc = rootLocation ||
    fs.entries.any fun e => loc.isPrefixOf e.1 && loc.length < e.1.length

/-- The directory around a place. -/
def parent (loc : Location) : Location :=
  if loc.all (· = utf8 "..") then utf8 ".." :: loc
  else if loc = rootLocation then loc
  else loc.dropLast

/-- The longest step of a path. -/
def maxStep : Nat := 255

/-- Takes steps from a directory. -/
def walk (fs : Files) : Location → List Bytes → Except Reason Location
  | loc, [] => .ok loc
  | loc, step :: steps =>
    if (fs.file? loc).isSome then .error .notDirectory
    else if !fs.isDirectory loc then .error .missing
    else if step = utf8 "." then walk fs loc steps
    else if step = utf8 ".." then walk fs (parent loc) steps
    else if maxStep < step.length then .error .nameTooLong
    else walk fs (loc ++ [step]) steps

/-- Does a path end in a slash, so that only a directory can be there? -/
def endsInSlash (path : Bytes) : Bool := path.getLast? = some Path.slash

/-- Follows a path to a place, which need not be taken. -/
def locate (fs : Files) (path : Bytes) : Except Reason Location :=
  if path.contains 0 then .error .invalid
  else if path.isEmpty then .error .missing
  else if 4096 ≤ path.length then .error .nameTooLong
  else fs.walk (if Path.isAbsolute path then rootLocation else []) (Path.steps path)

/-- The contents of a file. -/
def read (fs : Files) (path : Bytes) : Except Failure Bytes :=
  match fs.locate path with
  | .error e => .error ⟨"open", path, e⟩
  | .ok loc =>
    match fs.file? loc with
    | some t => if endsInSlash path then .error ⟨"open", path, .notDirectory⟩ else .ok t
    | none =>
      if fs.isDirectory loc then .error ⟨"read", path, .isDirectory⟩
      else .error ⟨"open", path, .missing⟩

/-- Puts contents at a place, in place of those that are there. -/
def put (fs : Files) (loc : Location) (t : Bytes) : Files :=
  ⟨(loc, t) :: fs.entries.filter (·.1 ≠ loc)⟩

/-- Makes a file with the given contents, or replaces those of a file that is there. -/
def create (fs : Files) (path t : Bytes) : Except Failure Files :=
  match fs.locate path with
  | .error e => .error ⟨"open", path, e⟩
  | .ok loc =>
    if fs.isDirectory loc ∨ endsInSlash path then .error ⟨"open", path, .isDirectory⟩
    else .ok (fs.put loc t)

/-- The files with the given paths. -/
def ofList (files : List (Bytes × Bytes)) : Files := ⟨files.map fun f => (Path.steps f.1, f.2)⟩

end Files

end SpanLisp
