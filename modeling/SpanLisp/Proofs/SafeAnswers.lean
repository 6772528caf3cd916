import SpanLisp.Diagnostic
import SpanLisp.Proofs.Sessions

/-!
# Every text has an answer

Whatever has been done to a session before, evaluating a text ends with a value that can be shown
or with an error that can be shown under its line (`Answers`, `answers_of_reachable`): no span
leaves its text, no symbol is foreign, no function is missing from the table, and no frame is
missing from the stack when one is to be taken away.
-/

namespace SpanLisp

/-! ### Rendering -/

namespace Diagnostic

theorem lineAt_start_le (text : Bytes) (pos : Nat) : (lineAt text pos).2 ≤ pos := by
  have hlen : (text.take pos).length ≤ pos := List.length_take_le _ _
  have hstart : afterLastLineFeed (text.take pos) ≤ (text.take pos).length := Nat.sub_le _ _
  exact Nat.le_trans hstart hlen

theorem length_dropTrailing_le (b : UInt8) (t : Bytes) :
    (Bytes.dropTrailing b t).length ≤ t.length := by
  unfold Bytes.dropTrailing
  split
  · rw [List.length_dropLast]
    exact Nat.sub_le _ _
  · exact Nat.le_refl _

/-- The line around an offset of the text ends within the text. -/
theorem lineAt_end_le {text : Bytes} {pos : Nat} (hpos : pos ≤ text.length) :
    (lineAt text pos).2 + (lineAt text pos).1.length ≤ text.length := by
  have hstart := lineAt_start_le text pos
  have hline : (lineAt text pos).1.length ≤ (text.drop (lineAt text pos).2).length :=
    Nat.le_trans (length_dropTrailing_le _ _) (List.takeWhile_prefix _).length_le
  rw [List.length_drop] at hline
  omega

/-- Rendering never cuts outside the text, wherever the span lies. -/
theorem render_eq (text message : Bytes) (span : Span) :
    let lo := min span.lo text.length
    let line := lineAt text lo
    let hi := max lo (min span.hi (line.2 + line.1.length))
    render text message span = .ok (utf8 "error: " ++ message ++ utf8 "\n" ++ line.1 ++
      utf8 "\n" ++ padding (Span.of ⟨line.2, lo⟩ text) ++ utf8 "^" ++
      Bytes.copies (Width.ofText (Span.of ⟨lo, hi⟩ text) - 1) 0x7e ++ utf8 "\n") := by
  intro lo line hi
  have hlo : lo ≤ text.length := Nat.min_le_right _ _
  have hstart : line.2 ≤ lo := lineAt_start_le text lo
  have hend : line.2 + line.1.length ≤ text.length := lineAt_end_le hlo
  have hhi : hi ≤ text.length := Nat.max_le.2 ⟨hlo, Nat.le_trans (Nat.min_le_right _ _) hend⟩
  show (slice text ⟨line.2, lo⟩ >>= fun before => slice text ⟨lo, hi⟩ >>= _) = _
  rw [slice_of_within ⟨hstart, hlo⟩, slice_of_within ⟨Nat.le_max_left _ _, hhi⟩]
  rfl

end Diagnostic

/-! ### Spans -/

/-- The span of a text that fits 32 bits is made without a defect and keeps its bounds. -/
theorem ofBounds_of_within {s : Span} {size : Nat} (hs : s.Within size)
    (hsize : size < 4294967296) : Span.ofBounds s.lo s.hi = .ok s := by
  obtain ⟨hle, hhi⟩ := hs
  have hlo : s.lo % 4294967296 = s.lo := Nat.mod_eq_of_lt (by omega)
  have hmod : s.hi % 4294967296 = s.hi := Nat.mod_eq_of_lt (by omega)
  unfold Span.ofBounds
  rw [if_neg (by omega), Int.toNat_natCast, Int.toNat_natCast, hlo, hmod]

/-! ### Answers -/

/-- What the evaluation of a text comes to, given what its reading comes to and the names known
afterwards. -/
inductive Answers (text : Bytes) (trees : Except SyntaxError (List Expr)) (names : Interner) :
    Except Fault Value → Prop
  /-- A value that can be displayed and written as JSON. -/
  | value {es : List Expr} {v : Value} {shown written : Bytes} (htrees : trees = .ok es)
      (hshown : v.display names = .ok shown) (hwritten : v.json names = .ok written) :
      Answers text trees names (.ok v)
  /-- The syntax error of the text, at a span within the text. -/
  | malformed {e : SyntaxError} {shown : Bytes} (htrees : trees = .error e)
      (hspan : e.span.lo ≤ e.span.hi ∧ e.span.hi ≤ text.length)
      (hbounds : Span.ofBounds e.span.lo e.span.hi = .ok e.span)
      (hrender : Diagnostic.ofSyntaxError text e = .ok shown) :
      Answers text trees names (.error (.malformed e))
  /-- An evaluation error at the span of a node of the trees. -/
  | failed {es : List Expr} {e : EvalError} {shown : Bytes} (htrees : trees = .ok es)
      (hnode : ∃ n ∈ Expr.nodesAll es, n.span = e.span)
      (hspan : e.span.lo < e.span.hi ∧ e.span.hi ≤ text.length)
      (hbounds : Span.ofBounds e.span.lo e.span.hi = .ok e.span)
      (hrender : Diagnostic.ofEvalError text e = .ok shown) :
      Answers text trees names (.error (.failed e))

namespace Session

/-- Known values can be shown, and errors within the text can be rendered. -/
theorem Ends.answers {text : Bytes} {trees : Except SyntaxError (List Expr)} {names : Interner}
    {r : Except Fault Value} (h : Ends text trees names r) (hsize : text.length < 4294967296) :
    Answers text trees names r := by
  cases trees with
  | error e =>
    obtain ⟨rfl, hspan⟩ := h
    exact .malformed rfl hspan (ofBounds_of_within hspan hsize) (Diagnostic.render_eq _ _ _)
  | ok es =>
    cases r with
    | ok v => exact .value rfl (Value.display_of_known h) (Value.json_of_known h)
    | error f =>
      obtain ⟨e, rfl, hnode, hspan⟩ := h
      exact .failed rfl hnode hspan (ofBounds_of_within ⟨Nat.le_of_lt hspan.1, hspan.2⟩ hsize)
        (Diagnostic.render_eq _ _ _)

/-- In every reachable session, evaluating a text as a line or as a script ends with a value that
can be shown or with an error whose span lies within the text and which can be rendered.  An
evaluation error has the span of a node.  Neither laying the frames of a new session nor forgetting
the definitions meets a defect.  The spans of all tokens and nodes keep their bounds in 32 bits. -/
theorem answers_of_reachable {s : Session} (hs : s.Reachable) {text : Bytes}
    (hsize : text.length < 4294967296) :
    Answers text ((s.parse text).1.map fun e => [e]) (s.evalLine text).session.names
        (s.evalLine text).result ∧
      Answers text (s.parseScript text).1 (s.evalScript text).session.names
        (s.evalScript text).result ∧
      (layFrames (Stack.ofName (stackName s.id))).1 = .ok () ∧ s.clear.result = .ok () ∧
      (∀ t ∈ (tokens text).1, Span.ofBounds t.span.lo t.span.hi = .ok t.span) ∧
      ∀ e : Expr, e.ReadFrom text →
        ∀ n ∈ e.nodes, Span.ofBounds n.span.lo n.span.hi = .ok n.span := by
  refine ⟨(hs.proper.evalLine text).2.answers hsize, (hs.proper.evalScript text).2.answers hsize,
    rfl, hs.proper.result_clear, ?_, ?_⟩
  · intro t ht
    exact ofBounds_of_within ((laid_tokens text).fits t ht).within hsize
  · intro e he n hn
    exact ofBounds_of_within (he.within n hn) hsize

/-- An undefined name, after a definition and the loading of bytes that are no snapshot. -/
theorem answers_to_undefined_name :
    let s := (((start [] { limit := 3 }).session.evalLine (utf8 "(def! x :k)")).session.load
      (utf8 "junk")).session
    let text := utf8 "[x (y)]"
    s.Reachable ∧ text.length < 4294967296 ∧
      Answers text ((s.parse text).1.map fun e => [e]) (s.evalLine text).session.names
        (s.evalLine text).result := by
  intro s text
  have hs : s.Reachable := ((Reachable.start _ _).evalLine _).load _
  have hsize : text.length < 4294967296 := by
    show (utf8 "[x (y)]").length < 4294967296
    decide
  exact ⟨hs, hsize, (answers_of_reachable hs hsize).1⟩

end Session

end SpanLisp
