import Mathlib.Data.List.Basic
import SpanLisp.Proofs.Parsing
import SpanLisp.Repl

/-! A dialogue on plain input handles the lines of the input in order, each once, but for one: the
bytes after the last line feed are lost if reading them in pieces ends with a piece that fills the
buffer. -/

namespace SpanLisp

namespace Bytes

variable {sep : UInt8} {w : Bytes}

theorem cut_of_notMem (h : sep ∉ w) : cut sep w = (w, none) := by
  induction w with
  | nil => rfl
  | cons b w ih =>
    have hb := List.ne_of_not_mem_cons h
    have hw := List.not_mem_of_not_mem_cons h
    rw [cut, if_neg hb.symm, ih hw]

theorem cut_append (h : sep ∉ w) (rest : Bytes) : cut sep (w ++ sep :: rest) = (w, some rest) := by
  induction w with
  | nil => rw [List.nil_append, cut, if_pos rfl]
  | cons b w ih =>
    have hb := List.ne_of_not_mem_cons h
    have hw := List.not_mem_of_not_mem_cons h
    rw [List.cons_append, cut, if_neg hb.symm, ih hw]

theorem splitOn_ne_nil (sep : UInt8) (t : Bytes) : splitOn sep t ≠ [] := by
  cases t with
  | nil => simp [splitOn]
  | cons b t =>
    rw [splitOn]
    split_ifs
    · simp
    · split <;> simp

theorem splitOn_of_notMem (h : sep ∉ w) : splitOn sep w = [w] := by
  induction w with
  | nil => rfl
  | cons b w ih =>
    have hb := List.ne_of_not_mem_cons h
    have hw := List.not_mem_of_not_mem_cons h
    rw [splitOn, if_neg hb.symm, ih hw]

theorem splitOn_append (h : sep ∉ w) (rest : Bytes) :
    splitOn sep (w ++ sep :: rest) = w :: splitOn sep rest := by
  induction w with
  | nil => rw [List.nil_append, splitOn, if_pos rfl]
  | cons b w ih =>
    have hb := List.ne_of_not_mem_cons h
    have hw := List.not_mem_of_not_mem_cons h
    rw [List.cons_append, splitOn, if_neg hb.symm, ih hw]

theorem dropTrailing_append {b : UInt8} {x y : Bytes} (h : y = [] → x.getLast? ≠ some b) :
    dropTrailing b (x ++ y) = x ++ dropTrailing b y := by
  unfold dropTrailing
  by_cases hy : y = []
  · subst hy
    simp [h rfl]
  · rw [List.getLast?_append_of_ne_nil _ hy]
    split_ifs
    · rw [List.dropLast_append_of_ne_nil hy]
    · rfl

end Bytes

namespace Line

/-! ### The lines of a text -/

/-- The lines that end in a line feed, without a carriage return before it. -/
def terminated (t : Bytes) : List Bytes :=
  (Bytes.splitOn Bytes.lineFeed t).dropLast.map (Bytes.dropTrailing Bytes.carriageReturn)

/-- The bytes after the last line feed. -/
def remainder (t : Bytes) : Bytes := (Bytes.splitOn Bytes.lineFeed t).getLastD []

/-- The lines of a text; the bytes after the last line feed are one too, if there are any. -/
def lines (t : Bytes) : List Bytes :=
  terminated t ++ if (remainder t).isEmpty then [] else [remainder t]

variable {w : Bytes}

theorem terminated_of_notMem (h : Bytes.lineFeed ∉ w) : terminated w = [] := by
  rw [terminated, Bytes.splitOn_of_notMem h]
  rfl

theorem remainder_of_notMem (h : Bytes.lineFeed ∉ w) : remainder w = w := by
  rw [remainder, Bytes.splitOn_of_notMem h]
  rfl

theorem terminated_append (h : Bytes.lineFeed ∉ w) (rest : Bytes) :
    terminated (w ++ Bytes.lineFeed :: rest) =
      Bytes.dropTrailing Bytes.carriageReturn w :: terminated rest := by
  rw [terminated, Bytes.splitOn_append h, List.dropLast_cons_of_ne_nil (Bytes.splitOn_ne_nil _ _),
    List.map_cons, terminated]

theorem remainder_append (h : Bytes.lineFeed ∉ w) (rest : Bytes) :
    remainder (w ++ Bytes.lineFeed :: rest) = remainder rest := by
  obtain ⟨p, ps, hsplit⟩ := List.exists_cons_of_ne_nil (Bytes.splitOn_ne_nil Bytes.lineFeed rest)
  rw [remainder, Bytes.splitOn_append h, remainder, hsplit, List.getLastD_cons, List.getLastD_cons,
    List.getLastD_cons]

/-! ### Pieces of lines -/

theorem bufferSize_eq : bufferSize = 4096 := rfl

/-- The number of bytes in the first piece of a line that fills the buffer. -/
def pieceLength (w : Bytes) : Nat :=
  if (w.take bufferSize).getLast? = some Bytes.carriageReturn then bufferSize - 1 else bufferSize

theorem pieceLength_pos (w : Bytes) : 0 < pieceLength w := by
  rw [pieceLength, bufferSize_eq]
  split_ifs <;> omega

/-- Does reading the bytes in pieces end with a piece that fills the buffer?  It does if there are
no bytes at all. -/
def endsFull (w : Bytes) : Bool :=
  if w.length < bufferSize then w.isEmpty else endsFull (w.drop (pieceLength w))
termination_by w.length
decreasing_by
  have := pieceLength_pos w
  rw [bufferSize_eq] at *
  rw [List.length_drop]
  omega

theorem endsFull_of_short (h : w.length < bufferSize) : endsFull w = w.isEmpty := by
  rw [endsFull, if_pos h]

theorem endsFull_of_long (h : bufferSize ≤ w.length) :
    endsFull w = endsFull (w.drop (pieceLength w)) := by
  rw [endsFull, if_neg (Nat.not_lt.2 h)]

theorem endsFull_nil : endsFull [] = true := endsFull_of_short (by decide)

theorem next_of_short (h : Bytes.lineFeed ∉ w) (hlength : w.length < bufferSize) (rest : Bytes) :
    next (w ++ Bytes.lineFeed :: rest) =
      some ⟨Bytes.dropTrailing Bytes.carriageReturn w, true, rest⟩ := by
  have hwindow : (w ++ Bytes.lineFeed :: rest).take bufferSize =
      w ++ Bytes.lineFeed :: rest.take (bufferSize - (w.length + 1)) := by
    rw [List.take_append, List.take_of_length_le (by omega),
      show bufferSize - w.length = bufferSize - (w.length + 1) + 1 by omega, List.take_succ_cons]
  have hrest : (w ++ Bytes.lineFeed :: rest).drop (w.length + 1) = rest := by
    rw [← List.drop_drop, List.drop_left, List.drop_succ_cons, List.drop_zero]
  unfold next
  simp only [hwindow, Bytes.cut_append h, hrest]

theorem next_of_short_end (h : Bytes.lineFeed ∉ w) (hlength : w.length < bufferSize)
    (hne : w ≠ []) : next w = some ⟨w, true, []⟩ := by
  have hwindow : w.take bufferSize = w := List.take_of_length_le (by omega)
  unfold next
  simp only [hwindow, Bytes.cut_of_notMem h]
  simp [hne, hlength]

theorem fullPiece_eq (hlength : bufferSize ≤ w.length) (rest : Bytes) :
    fullPiece (w.take bufferSize) (w.drop bufferSize ++ rest) =
      ⟨w.take (pieceLength w), false, w.drop (pieceLength w) ++ rest⟩ := by
  unfold fullPiece pieceLength
  split_ifs with hlast
  · have hfull : (w.take bufferSize).dropLast.length = bufferSize - 1 := by
      rw [List.length_dropLast, List.length_take_of_le hlength]
    have hw : w = (w.take bufferSize).dropLast ++ Bytes.carriageReturn :: w.drop bufferSize := by
      have hsplit := List.dropLast_append_getLast? _ hlast
      rw [List.append_cons, hsplit, List.take_append_drop]
    have htake : w.take (bufferSize - 1) = (w.take bufferSize).dropLast := by
      rw [List.dropLast_eq_take, List.length_take_of_le hlength, List.take_take, Nat.min_eq_left]
      omega
    have hdrop : w.drop (bufferSize - 1) = Bytes.carriageReturn :: w.drop bufferSize := by
      conv_lhs => rw [hw]
      exact List.drop_left' hfull
    rw [htake, hdrop, List.cons_append]
  · rfl

/-- A line that fills the buffer is read up to a piece, and the rest of it comes later. -/
theorem next_of_long (h : Bytes.lineFeed ∉ w) (hlength : bufferSize ≤ w.length) (rest : Bytes) :
    next (w ++ rest) =
      some ⟨w.take (pieceLength w), false, w.drop (pieceLength w) ++ rest⟩ := by
  have hwindow : (w ++ rest).take bufferSize = w.take bufferSize :=
    List.take_append_of_le_length hlength
  have hfull : (w.take bufferSize).length = bufferSize := List.length_take_of_le hlength
  have hempty : (w.take bufferSize).isEmpty = false := by
    rw [← Bool.not_eq_true, List.isEmpty_iff_length_eq_zero, hfull, bufferSize_eq]
    decide
  have hcut := Bytes.cut_of_notMem fun hmem => h (List.mem_of_mem_take (i := bufferSize) hmem)
  unfold next
  simp only [hwindow, hcut, hempty, hfull, Nat.lt_irrefl, if_false, Bool.false_eq_true]
  rw [List.drop_append_of_le_length hlength, fullPiece_eq hlength]

theorem joined_of_next {t : Bytes} {p : Piece} (h : next t = some p) :
    joined t = if p.isLast then (some p.text, p.rest)
      else ((joined p.rest).1.map (p.text ++ ·), (joined p.rest).2) := by
  rw [joined]
  split
  · rename_i hnone
    rw [h] at hnone
    cases hnone
  · rename_i hsome
    rw [h] at hsome
    cases hsome
    rfl

theorem joined_of_long (h : Bytes.lineFeed ∉ w) (hlength : bufferSize ≤ w.length) (rest : Bytes) :
    joined (w ++ rest) = ((joined (w.drop (pieceLength w) ++ rest)).1.map
      (w.take (pieceLength w) ++ ·), (joined (w.drop (pieceLength w) ++ rest)).2) :=
  joined_of_next (next_of_long h hlength rest)

theorem joined_nil : joined [] = (none, []) := by
  rw [joined]
  rfl

/-! ### Lines put together -/

/-- Pieces of a line keep a carriage return at its end apart from the rest. -/
theorem dropTrailing_pieces (hlength : bufferSize ≤ w.length) :
    w.take (pieceLength w) ++ Bytes.dropTrailing Bytes.carriageReturn (w.drop (pieceLength w)) =
      Bytes.dropTrailing Bytes.carriageReturn w := by
  rw [← Bytes.dropTrailing_append, List.take_append_drop]
  intro hempty
  have hle := List.drop_eq_nil_iff.1 hempty
  unfold pieceLength at hle ⊢
  rw [bufferSize_eq] at *
  split_ifs at hle ⊢ with hlast
  · omega
  · exact hlast

theorem joined_terminated (h : Bytes.lineFeed ∉ w) (rest : Bytes) :
    joined (w ++ Bytes.lineFeed :: rest) =
      (some (Bytes.dropTrailing Bytes.carriageReturn w), rest) := by
  -- By the pieces of the line, which `endsFull` takes off one after the other.
  induction w using endsFull.induct with
  | case1 w hshort => exact joined_of_next (next_of_short h hshort rest)
  | case2 w hlong ih =>
    have hlength := Nat.le_of_not_lt hlong
    rw [joined_of_long h hlength, ih fun hmem => h (List.mem_of_mem_drop hmem),
      Option.map_some, dropTrailing_pieces hlength]

theorem joined_remainder (h : Bytes.lineFeed ∉ w) :
    joined w = (if endsFull w then none else some w, []) := by
  induction w using endsFull.induct with
  | case1 w hshort =>
    rw [endsFull_of_short hshort]
    by_cases hw : w = []
    · rw [hw, joined_nil]
      rfl
    · rw [joined_of_next (next_of_short_end h hshort hw)]
      simp [hw]
  | case2 w hlong ih =>
    have hlength := Nat.le_of_not_lt hlong
    have hjoined := joined_of_long h hlength []
    rw [List.append_nil, List.append_nil, ih fun hmem => h (List.mem_of_mem_drop hmem)] at hjoined
    rw [hjoined, endsFull_of_long hlength]
    split_ifs
    · rfl
    · rw [Option.map_some, List.take_append_drop]

/-- The lines that are read: all of them, but for a last one that ends with a full buffer. -/
def readable (t : Bytes) : List Bytes :=
  if endsFull (remainder t) then terminated t else lines t

theorem readable_append (h : Bytes.lineFeed ∉ w) (rest : Bytes) :
    readable (w ++ Bytes.lineFeed :: rest) =
      Bytes.dropTrailing Bytes.carriageReturn w :: readable rest := by
  unfold readable lines
  rw [terminated_append h, remainder_append h]
  split_ifs <;> rfl

theorem readable_of_notMem (h : Bytes.lineFeed ∉ w) :
    readable w = if endsFull w then [] else [w] := by
  unfold readable lines
  rw [terminated_of_notMem h, remainder_of_notMem h]
  split_ifs with hfull hempty
  · rfl
  · rw [List.isEmpty_iff] at hempty
    subst hempty
    exact absurd endsFull_nil hfull
  · rfl

/-- Taking lines off the front of the input yields the readable ones. -/
theorem joined_cases (t : Bytes) :
    (joined t = (none, []) ∧ readable t = []) ∨
      ∃ line rest, joined t = (some line, rest) ∧ rest.length < t.length ∧
        readable t = line :: readable rest := by
  by_cases hmem : Bytes.lineFeed ∈ t
  · obtain ⟨w, rest, rfl, hw⟩ := List.eq_append_cons_of_mem hmem
    refine .inr ⟨_, rest, joined_terminated hw rest, ?_, readable_append hw rest⟩
    rw [List.length_append, List.length_cons]
    omega
  · rw [joined_remainder hmem, readable_of_notMem hmem]
    split_ifs with hfull
    · exact .inl ⟨rfl, rfl⟩
    · refine .inr ⟨t, [], rfl, ?_, ?_⟩
      · rw [List.length_nil, List.length_pos_iff]
        rintro rfl
        exact hfull endsFull_nil
      · rw [readable_of_notMem List.not_mem_nil, if_pos endsFull_nil]

/-- Without carriage returns, the last line is lost if it fills the buffer some number of times. -/
theorem endsFull_iff_dvd (h : Bytes.carriageReturn ∉ w) :
    endsFull w = true ↔ bufferSize ∣ w.length := by
  induction w using endsFull.induct with
  | case1 w hshort =>
    rw [endsFull_of_short hshort, List.isEmpty_iff_length_eq_zero]
    exact ⟨fun hzero => hzero ▸ Nat.dvd_zero _, fun hdvd => Nat.eq_zero_of_dvd_of_lt hdvd hshort⟩
  | case2 w hlong ih =>
    have hpiece : pieceLength w = bufferSize := by
      rw [pieceLength, if_neg]
      exact fun hlast => h (List.mem_of_mem_take (List.mem_of_getLast? hlast))
    have hrest := ih fun hmem => h (List.mem_of_mem_drop hmem)
    rw [endsFull_of_long (Nat.le_of_not_lt hlong), hrest, hpiece, List.length_drop]
    rw [bufferSize_eq] at *
    omega

end Line

/-! ### Computations that leave the input alone -/

/-- The world with other input to come. -/
def World.withInput (w : World) (input : Bytes) : World := { w with input := input }

/-- The computation neither reads nor changes the input to come. -/
def LeavesInput {α : Type} (x : StateM World α) : Prop :=
  ∀ (w : World) (input : Bytes), x (w.withInput input) = ((x w).1, (x w).2.withInput input)

section Rules

variable {α β : Type} {x : StateM World α} {f : α → StateM World β}

theorem leavesInput_pure (a : α) : LeavesInput (pure a) := fun _ _ => rfl

theorem World.bind_apply (x : StateM World α) (f : α → StateM World β) {w w' : World} {a : α}
    (h : x w = (a, w')) : (x >>= f) w = f a w' := by
  show f (x w).1 (x w).2 = f a w'
  rw [h]

theorem LeavesInput.bind (hx : LeavesInput x) (hf : ∀ a, LeavesInput (f a)) :
    LeavesInput (x >>= f) := by
  intro w input
  rw [World.bind_apply x f (hx w input)]
  exact hf _ _ _

theorem leavesInput_print (t : Bytes) : LeavesInput (Host.print t) := fun _ _ => rfl

theorem leavesInput_note (t : Bytes) : LeavesInput (Host.note t) := by
  intro w input
  show ((), if w.notesApart then _ else _) = ((), World.withInput (if w.notesApart then _ else _) _)
  split <;> rfl

theorem leavesInput_log (e : Event) : LeavesInput (Host.log e) := by
  intro w input
  show ((), if e.isHeard w.verbosity then _ else _) =
    ((), World.withInput (if e.isHeard w.verbosity then _ else _) _)
  split <;> rfl

theorem leavesInput_readFile (path : Bytes) : LeavesInput (Host.readFile path) := fun _ _ => rfl

theorem World.get_apply (w : World) : (get : StateM World World) w = (w, w) := rfl

theorem World.createFile_of_error {w : World} {path contents : Bytes} {e : Files.Failure}
    (h : w.files.create path contents = .error e) :
    (Host.createFile path contents : StateM World _) w = (.error e, w) := by
  refine (World.bind_apply _ _ w.get_apply).trans ?_
  simp only [h]
  rfl

theorem World.createFile_of_ok {w : World} {path contents : Bytes} {files : Files}
    (h : w.files.create path contents = .ok files) :
    (Host.createFile path contents : StateM World _) w = (.ok (), { w with files := files }) := by
  refine (World.bind_apply _ _ w.get_apply).trans ?_
  simp only [h]
  rfl

theorem leavesInput_createFile (path contents : Bytes) :
    LeavesInput (Host.createFile path contents) := by
  intro w input
  -- The files are the same whatever the input, so one case split serves both sides.
  cases h : w.files.create path contents with
  | error e =>
    rw [World.createFile_of_error h, World.createFile_of_error (w := w.withInput input) h]
  | ok files =>
    rw [World.createFile_of_ok h, World.createFile_of_ok (w := w.withInput input) h]
    rfl

theorem leavesInput_logAll (es : List Event) : LeavesInput (Repl.logAll es) := by
  induction es with
  | nil => exact leavesInput_pure ()
  | cons e es ih => exact (leavesInput_log e).bind fun _ => ih

end Rules

namespace Repl

variable (r : Repl)

theorem leavesInput_printLine (t : Bytes) : LeavesInput (printLine t) := leavesInput_print _

theorem leavesInput_printError (t : Bytes) : LeavesInput (printError t) := leavesInput_print _

theorem leavesInput_printValue (v : Value) : LeavesInput (r.printValue v) := by
  unfold printValue
  dsimp only
  split
  · exact leavesInput_printLine _
  · exact leavesInput_printError _

theorem leavesInput_remark (t : Bytes) : LeavesInput (r.note t) := by
  unfold note
  split
  · exact leavesInput_note _
  · exact leavesInput_pure ()

theorem leavesInput_answer (line : Bytes) (reply : Session.Reply (Except Fault Value)) :
    LeavesInput do
      logAll reply.events
      match reply.result with
      | .error f => Host.print (Diagnostic.shown (Diagnostic.ofFault line f))
      | .ok v => r.printValue v
      return r := by
  refine (leavesInput_logAll _).bind fun _ => ?_
  split
  · exact (leavesInput_print _).bind fun _ => leavesInput_pure _
  · exact (leavesInput_printValue _ _).bind fun _ => leavesInput_pure _

theorem leavesInput_evalLine (line : Bytes) : LeavesInput (r.evalLine line) := by
  unfold evalLine
  dsimp only
  split
  · exact (leavesInput_print _).bind fun _ => leavesInput_pure _
  · refine (leavesInput_remark _ _).bind fun _ => ?_
    split
    · exact (leavesInput_print _).bind fun _ => leavesInput_answer _ _ _
    · exact leavesInput_answer _ _ _

theorem leavesInput_showTree (text : Bytes) : LeavesInput (r.showTree text) := by
  unfold showTree
  dsimp only
  split
  · exact (leavesInput_print _).bind fun _ => leavesInput_pure _
  · exact (leavesInput_printLine _).bind fun _ => (leavesInput_print _).bind fun _ =>
      leavesInput_pure _

theorem leavesInput_showTokens (text : Bytes) : LeavesInput (showTokens text) := by
  refine (leavesInput_print _).bind fun _ => ?_
  split
  · exact leavesInput_print _
  · exact leavesInput_pure ()

theorem leavesInput_save (path : Bytes) : LeavesInput (r.save path) := by
  unfold save
  split
  · exact (leavesInput_printLine _).bind fun _ => leavesInput_pure _
  split
  · exact (leavesInput_printError _).bind fun _ => leavesInput_pure _
  refine (leavesInput_createFile _ _).bind fun created => ?_
  cases created with
  | error e => exact (leavesInput_printError _).bind fun _ => leavesInput_pure _
  | ok _ =>
    dsimp only
    split
    · exact (leavesInput_printError _).bind fun _ => leavesInput_pure _
    · exact (leavesInput_createFile _ _).bind fun _ => (leavesInput_logAll _).bind fun _ =>
        (leavesInput_printLine _).bind fun _ => leavesInput_pure _

theorem leavesInput_load (path : Bytes) : LeavesInput (r.load path) := by
  unfold load
  split
  · exact (leavesInput_printLine _).bind fun _ => leavesInput_pure _
  refine (leavesInput_readFile _).bind fun contents => ?_
  cases contents with
  | error e => exact (leavesInput_printError _).bind fun _ => leavesInput_pure _
  | ok bytes =>
    refine (leavesInput_logAll _).bind fun _ => ?_
    split
    · exact (leavesInput_printError _).bind fun _ => leavesInput_pure _
    · exact (leavesInput_printLine _).bind fun _ => leavesInput_pure _

theorem leavesInput_perform (command : Command) : LeavesInput (r.perform command) := by
  cases command with
  | quit => exact leavesInput_pure _
  | list showGlobal => exact (leavesInput_print _).bind fun _ => leavesInput_pure _
  | clear =>
    rw [perform]
    dsimp only
    split
    · exact (leavesInput_printLine _).bind fun _ => leavesInput_pure _
    · exact (leavesInput_printError _).bind fun _ => leavesInput_pure _
  | verbose => exact (leavesInput_printLine _).bind fun _ => leavesInput_pure _
  | tree text => exact (leavesInput_showTree r text).bind fun _ => leavesInput_pure _
  | tokens text => exact (leavesInput_showTokens text).bind fun _ => leavesInput_pure _
  | save path => exact (leavesInput_save r path).bind fun _ => leavesInput_pure _
  | load path => exact (leavesInput_load r path).bind fun _ => leavesInput_pure _

/-- Handling a line takes nothing from the input. -/
theorem leavesInput_handleLine (line : Bytes) : LeavesInput (r.handleLine line) := by
  unfold handleLine
  dsimp only
  split
  · exact leavesInput_pure _
  split
  · exact leavesInput_perform r _
  · exact (leavesInput_evalLine r line).bind fun _ => leavesInput_pure _

/-! ### Dialogues over lines -/

/-- A dialogue over the given lines: invites and handles each in turn, up to one that asks to quit,
and invites once more if none does. -/
def converse : Repl → List Bytes → StateM World Repl
  | r, [] => do
    Host.print r.settings.prompt
    return r
  | r, line :: rest => do
    Host.print r.settings.prompt
    let (goOn, r') ← r.handleLine line
    if goOn then r'.converse rest else return r'

theorem leavesInput_converse : ∀ (r : Repl) (lines : List Bytes), LeavesInput (r.converse lines)
  | _, [] => (leavesInput_print _).bind fun _ => leavesInput_pure _
  | r, line :: rest => by
    refine (leavesInput_print _).bind fun _ => (leavesInput_handleLine r line).bind fun p => ?_
    obtain ⟨goOn, r'⟩ := p
    cases goOn with
    | true => exact leavesInput_converse r' rest
    | false => exact leavesInput_pure r'

/-- The world after the invitation to a line. -/
def invited (r : Repl) (w : World) : World := { w with printed := r.settings.prompt :: w.printed }

theorem print_prompt (r : Repl) (w : World) :
    (Host.print r.settings.prompt : StateM World Unit) w = ((), r.invited w) := rfl

theorem readLine_invited {r : Repl} {w : World} {found : Option Bytes} {rest : Bytes}
    (h : Line.joined w.input = (found, rest)) :
    (Host.readLine .whole : StateM World (Option Bytes)) (r.invited w) =
      (found, (r.invited w).withInput rest) := by
  show ((Line.joined w.input).1, (r.invited w).withInput (Line.joined w.input).2) = _
  rw [h]

/-- Turns at plain input handle the readable lines. -/
theorem iterate_plainTurn : ∀ (n : Nat) (r : Repl) (w : World), w.input.length < n →
    ∃ rest, World.iterate plainTurn n r w =
      ((r.converse (Line.readable w.input) w).1,
        (r.converse (Line.readable w.input) w).2.withInput rest)
  | 0, _, _, h => absurd h (Nat.not_lt_zero _)
  | n + 1, r, w, h => by
    have hprompt := print_prompt r w
    rcases Line.joined_cases w.input with ⟨hjoined, hlines⟩ | ⟨line, rest, hjoined, hlt, hlines⟩
    · have hturn : (plainTurn r : StateM World (Bool × Repl)) w =
          ((false, r), (r.invited w).withInput []) := by
        rw [plainTurn, World.bind_apply _ _ hprompt,
          World.bind_apply _ _ (readLine_invited hjoined)]
        rfl
      rw [hlines, World.iterate, World.bind_apply _ _ hturn]
      exact ⟨[], rfl⟩
    · rcases hhandle : (r.handleLine line : StateM World (Bool × Repl)) (r.invited w) with
        ⟨⟨goOn, r'⟩, w'⟩
      have hturn : (plainTurn r : StateM World (Bool × Repl)) w =
          ((goOn, r'), w'.withInput rest) := by
        rw [plainTurn, World.bind_apply _ _ hprompt,
          World.bind_apply _ _ (readLine_invited hjoined)]
        exact (leavesInput_handleLine r line _ rest).trans (by rw [hhandle])
      rw [hlines, converse, World.bind_apply _ _ hprompt, World.bind_apply _ _ hhandle,
        World.iterate, World.bind_apply _ _ hturn]
      cases goOn with
      | false => exact ⟨rest, rfl⟩
      | true =>
        have hlength : (w'.withInput rest).input.length < n := by
          show rest.length < n
          omega
        obtain ⟨left, hrun⟩ := iterate_plainTurn n r' (w'.withInput rest) hlength
        refine ⟨left, hrun.trans ?_⟩
        have hsame := leavesInput_converse r' (Line.readable rest) w' rest
        show ((r'.converse (Line.readable rest) (w'.withInput rest)).1,
          (r'.converse (Line.readable rest) (w'.withInput rest)).2.withInput left) = _
        rw [hsame]
        rfl

/-- A dialogue over the given lines, with a greeting if that is wanted. -/
def dialogue (build : Build) (r : Repl) (lines : List Bytes) : StateM World Repl := do
  if !r.settings.quiet then Host.print (greeting build)
  r.converse lines

/-- On plain input the dialogue is one over the lines of the input: they are cut at the line feeds,
without a carriage return before, whatever their lengths, and handled in order, each once, up to one
that asks to quit.  Bytes after the last line feed are the last line, which is handled too unless it
fills the buffer right to the end of the input (`Line.readable`). -/
theorem run_handles_lines (build : Build) {r : Repl} (hplain : r.settings.plainInput = true)
    (w : World) :
    ∃ rest, (run build r : StateM World Repl) w =
      ((r.dialogue build (Line.readable w.input) w).1,
        (r.dialogue build (Line.readable w.input) w).2.withInput rest) := by
  unfold run dialogue
  simp only [hplain, if_true]
  cases r.settings.quiet with
  | true => exact iterate_plainTurn _ r w (Nat.lt_succ_self _)
  | false =>
    exact iterate_plainTurn _ r { w with printed := greeting build :: w.printed }
      (Nat.lt_succ_self _)

/-- A dialogue without a greeting. -/
def quietRepl : Repl where
  session := Session.ofId [] {}
  settings := { plainInput := true, quiet := true, prompt := utf8 "> " }

theorem run_handles_lines_unterminated :
    Line.readable (utf8 "7\r\n.quit\n8") = [utf8 "7", utf8 ".quit", utf8 "8"] ∧
      ∃ rest, (run {} quietRepl : StateM World Repl) { input := utf8 "7\r\n.quit\n8" } =
        ((quietRepl.dialogue {} (Line.readable (utf8 "7\r\n.quit\n8"))
            { input := utf8 "7\r\n.quit\n8" }).1,
          (quietRepl.dialogue {} (Line.readable (utf8 "7\r\n.quit\n8"))
            { input := utf8 "7\r\n.quit\n8" }).2.withInput rest) := by
  refine ⟨?_, run_handles_lines {} rfl { input := utf8 "7\r\n.quit\n8" }⟩
  have hfull : Line.endsFull (Line.remainder (utf8 "7\r\n.quit\n8")) = false :=
    Line.endsFull_of_short (by decide)
  rw [Line.readable, hfull]
  rfl

/-- A seven and as many blanks behind it as fill the buffer. -/
def fullLine : Bytes := utf8 "7" ++ Bytes.copies 4095 0x20

theorem notMem_fullLine {b : UInt8} (h : b ≠ 0x37 ∧ b ≠ 0x20) : b ∉ fullLine := by
  rw [fullLine, List.mem_append, not_or]
  exact ⟨fun hmem => h.1 (List.mem_singleton.1 hmem),
    fun hmem => h.2 (List.eq_of_mem_replicate hmem)⟩

theorem trim_padded (n : Nat) : Blank.trim (utf8 "7" ++ Bytes.copies n 0x20) = utf8 "7" := by
  have hblanks : Utf8.runes (Bytes.copies n 0x20) = List.replicate n ⟨' ', [0x20]⟩ := by
    induction n with
    | zero => rfl
    | succ n ih =>
      rw [Bytes.copies, List.replicate_succ, Utf8.runes_cons_of_lt (by decide)]
      exact congrArg _ ih
  have hrunes : Utf8.runes (utf8 "7" ++ Bytes.copies n 0x20) =
      ⟨'7', [0x37]⟩ :: List.replicate n ⟨' ', [0x20]⟩ := by
    rw [← hblanks]
    exact Utf8.runes_cons_of_lt (by decide) _
  have hblank : ∀ c ∈ List.replicate n (⟨' ', [0x20]⟩ : Rune), Blank.isBlank c = true := by
    intro c hc
    rw [List.eq_of_mem_replicate hc]
    decide
  unfold Blank.trim Blank.trimRunes
  rw [hrunes, List.dropWhile_cons_of_neg (by decide), List.reverse_cons, List.reverse_replicate,
    List.dropWhile_append_of_pos hblank]
  rfl

theorem parseLine_padded (limit n : Nat) (names : Interner) :
    parseLine limit (utf8 "7" ++ Bytes.copies (n + 1) 0x20) names =
      (.ok (.integer ⟨0, 1⟩ 7), names) := by
  have hseven : Lexeme .integer (utf8 "7") :=
    ⟨List.cons_ne_nil _ _, List.forall_mem_singleton.2 rfl⟩
  have hblanks : Lexeme .blank (Bytes.copies (n + 1) 0x20) :=
    ⟨List.cons_ne_nil _ _, fun b hb => by rw [List.eq_of_mem_replicate hb]; rfl⟩
  have hstop : Stops .integer (Bytes.copies (n + 1) 0x20) := by
    rintro b ⟨⟩
    rfl
  have hbehind := scan_append hblanks (stops_nil .blank) 1
  rw [List.append_nil] at hbehind
  have htokens := (ByteLexer.tokens_eq_scan _).trans (scan_append hseven hstop 0)
  rw [show 0 + (utf8 "7").length = 1 from rfl, hbehind] at htokens
  have hparse : Parser.parse .line limit (utf8 "7" ++ Bytes.copies (n + 1) 0x20) names =
      (.ok [.integer ⟨0, 1⟩ 7], names) := by
    unfold Parser.parse
    rw [htokens]
    rfl
  exact parseLine_of_parse hparse

theorem dialogue_padded (n : Nat) (input : Bytes) :
    (quietRepl.dialogue {} [utf8 "7" ++ Bytes.copies (n + 1) 0x20] { input := input }).2.output =
      utf8 "> 7\n> " := by
  have hhandle : (quietRepl.handleLine (utf8 "7" ++ Bytes.copies (n + 1) 0x20) :
      StateM World (Bool × Repl)) (quietRepl.invited { input := input }) =
        ((true, quietRepl),
          { input := input, printed := [Decimal.ofNat 7 ++ [] ++ utf8 "\n", utf8 "> "] }) := by
    rw [handleLine, trim_padded]
    unfold evalLine Session.parse
    rw [parseLine_padded]
    rfl
  show (quietRepl.converse [utf8 "7" ++ Bytes.copies (n + 1) 0x20] _).2.output = _
  rw [converse, World.bind_apply _ _ (print_prompt quietRepl _), World.bind_apply _ _ hhandle,
    Decimal.ofNat_of_lt (by decide)]
  rfl

theorem run_of_unreadable {input : Bytes} (h : Line.readable input = []) :
    ((run {} quietRepl : StateM World Repl) { input := input }).2.output = utf8 "> " := by
  obtain ⟨rest, hrun⟩ :=
    iterate_plainTurn (input.length + 1) quietRepl { input := input } (Nat.lt_succ_self _)
  rw [h] at hrun
  exact congrArg (fun p => p.2.output) hrun

/-- The full line is a line of the input, and handling it prints its value; but a run on it ends
with the first invitation. -/
theorem run_drops_full_line :
    Line.lines fullLine = [fullLine] ∧
      (quietRepl.dialogue {} (Line.lines fullLine) { input := fullLine }).2.output =
        utf8 "> 7\n> " ∧
      ((run {} quietRepl : StateM World Repl) { input := fullLine }).2.output = utf8 "> " := by
  have hfeed : Bytes.lineFeed ∉ fullLine := notMem_fullLine (by decide)
  have hreturn : Bytes.carriageReturn ∉ fullLine := notMem_fullLine (by decide)
  have hlength : fullLine.length = Line.bufferSize := by
    rw [fullLine, List.length_append, Bytes.copies, List.length_replicate]
    rfl
  have hlines : Line.lines fullLine = [fullLine] := by
    unfold Line.lines
    rw [Line.terminated_of_notMem hfeed, Line.remainder_of_notMem hfeed]
    rfl
  have hreadable : Line.readable fullLine = [] := by
    rw [Line.readable_of_notMem hfeed, if_pos]
    exact (Line.endsFull_iff_dvd hreturn).2 (hlength ▸ Nat.dvd_refl _)
  refine ⟨hlines, ?_, run_of_unreadable hreadable⟩
  rw [hlines]
  exact dialogue_padded 4094 fullLine

end Repl

end SpanLisp
