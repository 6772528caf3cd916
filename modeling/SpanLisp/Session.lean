import SpanLisp.Eval
import SpanLisp.Expr.Parser
import SpanLisp.Snapshot

/-!
# Sessions

A `Session` owns the names and the scopes that expressions are evaluated against.  Its stack has two
frames between operations: the global frame with the builtins, and the user frame that `def!`
writes to.  An operation gives back a `Session.Reply`: its result, the session after it, and the
events it reported.
-/

namespace SpanLisp

/-- The names and scopes of a dialogue. -/
structure Session where
  /-- The identifier. -/
  id : Bytes
  /-- The names met. -/
  names : Interner
  /-- The scopes. -/
  stack : Stack
  /-- The number of evaluations in progress. -/
  depth : Nat := 0
  /-- The depth limit and what is reported. -/
  options : EvalOptions

namespace Session

/-- What an operation on a session comes to. -/
structure Reply (α : Type) where
  /-- The result. -/
  result : α
  /-- The session afterwards. -/
  session : Session
  /-- What was reported, in order. -/
  events : List Event := []

/-! ### Beginning and clearing -/

/-- The name of the stack of a session. -/
def stackName (id : Bytes) : Bytes := utf8 "session " ++ id

/-- The name of the frame that definitions go to. -/
def userName : Bytes := utf8 "user"

/-- The place of the frame that definitions go to. -/
def userPlace : Nat := 1

/-- The builtins under the symbols that the table's order gives them. -/
def builtins : Bindings :=
  (List.range Builtin.names.length).foldl (fun bs i => bs.insert i (.function i)) ∅

/-- The global frame. -/
def globalScope : Scope := { bindings := builtins, name := utf8 "global", isGlobal := true }

/-- Puts the global frame and an empty user frame on a stack. -/
def layFrames : StackM Defect Unit := do
  Stack.push globalScope
  Stack.pushNamed userName

/-- A new session: the builtins in the global frame and an empty user frame. -/
def ofId (id : Bytes) (options : EvalOptions) : Session where
  id := id
  names := Interner.empty.internAll Builtin.names
  stack := (layFrames (Stack.ofName (stackName id))).2
  options := options

/-- A new session, reported. -/
def start (id : Bytes) (options : EvalOptions) : Reply Unit :=
  ⟨(), ofId id options, [.sessionStarted id globalScope.size]⟩

/-- The session under another identifier. -/
def withId (s : Session) (id : Bytes) : Session :=
  { s with id := id, stack := { s.stack with name := stackName id } }

/-- The frame that definitions go to. -/
def userScope (s : Session) : Except Defect Scope := s.stack.frameAt userPlace

/-- Takes all frames but the lowest away and puts an empty user frame on top. -/
def renewUserFrame : StackM Defect Unit := do
  Stack.truncate 1
  Stack.pushNamed userName

/-- Forgets the definitions. -/
def clear (s : Session) : Reply (Except Defect Unit) :=
  let r := renewUserFrame s.stack
  ⟨r.1, { s with stack := r.2 }, []⟩

/-- Lists the frames. -/
def listing (s : Session) (showGlobal : Bool) : Except Defect Bytes :=
  s.stack.listing s.names showGlobal

/-! ### Evaluating -/

/-- Reads one expression. -/
def parse (s : Session) (line : Bytes) : Except SyntaxError Expr × Session :=
  let r := parseLine s.options.limit line s.names
  (r.1, { s with names := r.2 })

/-- Reads every expression of a text. -/
def parseScript (s : Session) (text : Bytes) : Except SyntaxError (List Expr) × Session :=
  let r := parseAll s.options.limit text s.names
  (r.1, { s with names := r.2 })

/-- Runs a computation on the scopes of the session. -/
def run {α : Type} (s : Session) (x : EvalM α) : Reply (Except Fault α) :=
  let r := x { stack := s.stack, depth := s.depth }
  ⟨r.1, { s with stack := r.2.stack, depth := r.2.depth }, r.2.events.reverse⟩

/-- Evaluates an expression of the given source. -/
def eval (s : Session) (source : Bytes) (e : Expr) : Reply (Except Fault Value) :=
  s.run (e.eval s.options source)

/-- Evaluates expressions in order, up to the first failure, and gives the last value, which is
`last` if there are none. -/
def evalEach (opts : EvalOptions) (source : Bytes) (last : Value) : List Expr → EvalM Value
  | [] => pure last
  | e :: es => do
    let v ← e.eval opts source
    evalEach opts source v es

/-- Reads and evaluates one expression. -/
def evalLine (s : Session) (line : Bytes) : Reply (Except Fault Value) :=
  match s.parse line with
  | (.error e, s') => ⟨.error (.malformed e), s', []⟩
  | (.ok e, s') => s'.eval line e

/-- Reads every expression of a text and evaluates them in order. -/
def evalScript (s : Session) (text : Bytes) : Reply (Except Fault Value) :=
  match s.parseScript text with
  | (.error e, s') => ⟨.error (.malformed e), s', []⟩
  | (.ok es, s') => s'.run (evalEach s'.options text .nil es)

/-! ### Saving and loading -/

/-- The definitions in the order of their names, symbols spelled out. -/
def entries (s : Session) : Except Defect (List Entry) :=
  match s.userScope with
  | .error d => .error d
  | .ok scope =>
    match scope.byName s.names with
    | .error d => .error d
    | .ok bs => Scope.collect (fun b => (Stored.ofValue s.names b.2).map (⟨b.1, ·⟩)) bs

/-- The snapshot of the definitions, and their number. -/
def save (s : Session) (format : Snapshot.Format) : Reply (Except Snapshot.Failure Bytes) :=
  match s.entries with
  | .error d => ⟨.error (.defect d), s, []⟩
  | .ok es =>
    match Snapshot.encode format es with
    | .error e => ⟨.error e, s, []⟩
    | .ok payload =>
      match Uuid.parse s.id with
      | .error e => ⟨.error (.badId e), s, []⟩
      | .ok id =>
        ⟨.ok (Snapshot.frame format id payload), s, [.saved es.length s.id format.name]⟩

/-- Gives the values of stored bindings symbols, in order, up to the first failure. -/
def revive (names : Interner) : List Entry → Except Stored.Failure (List (Bytes × Value)) × Interner
  | [] => (.ok [], names)
  | e :: es =>
    match e.value.toValue names with
    | (.error f, names') => (.error f, names')
    | (.ok v, names') =>
      let r := revive names' es
      (r.1.map ((e.name, v) :: ·), r.2)

/-- Binds names in the frame that definitions go to. -/
def bindAll (s : Session) : List (Bytes × Value) → Except Defect Session
  | [] => .ok s
  | (name, v) :: rest =>
    let r := s.names.intern name
    match Stack.bindAt userPlace r.1 v s.stack with
    | (.error d, _) => .error d
    | (.ok (), stack) => bindAll { s with names := r.2, stack := stack } rest

/-- Adds the bindings of a snapshot to the definitions and gives the identifier of the session that
wrote it.  Nothing is bound unless all of it can be read. -/
def load (s : Session) (t : Bytes) : Reply (Except Snapshot.Failure Bytes) :=
  match Snapshot.read t with
  | .error e => ⟨.error e, s, []⟩
  | .ok shot =>
    match revive s.names shot.entries with
    | (.error e, names) => ⟨.error (.meaningless e), { s with names := names }, []⟩
    | (.ok bs, names) =>
      match { s with names := names }.bindAll bs with
      | .error d => ⟨.error (.defect d), { s with names := names }, []⟩
      | .ok s' =>
        let origin := Uuid.text shot.origin
        ⟨.ok origin, s', [.loaded shot.entries.length origin]⟩

end Session

end SpanLisp
