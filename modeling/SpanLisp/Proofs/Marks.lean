import Mathlib.Data.List.Induction
import SpanLisp.Proofs.ByteRuns
import SpanLisp.Proofs.SafeAnswers

/-!
# The marks under a span

A diagnostic shows the line around the start of a span (`LineAround`) with a marker line below it.
In plain ASCII every byte is a column (`padding_of_plain`, `ofText_of_printable`), so the marks
stand under the bytes of the span on that line, whatever the span and whatever contexts the error
has been given (`render_marks_span`).
-/

namespace SpanLisp

/-! ### Lines -/

/-- The line of a text around an offset, without its line feed: what comes before it ends with a
line feed, what comes after it begins with one, and the offset is in the line or at its end. -/
structure LineAround (text : Bytes) (pos : Nat) (before line after : Bytes) : Prop where
  /-- The line is a part of the text. -/
  text_eq : text = before ++ line ++ after
  /-- A line feed ends what comes before. -/
  starts : before = [] ∨ before.getLast? = some Bytes.lineFeed
  /-- The line holds none. -/
  noLineFeed : Bytes.lineFeed ∉ line
  /-- A line feed begins what comes after. -/
  ends : after = [] ∨ after.head? = some Bytes.lineFeed
  /-- The line starts at the offset or before. -/
  start_le : before.length ≤ pos
  /-- It ends at the offset or after. -/
  le_stop : pos ≤ before.length + line.length

theorem exists_last_line (t : Bytes) :
    ∃ before line, t = before ++ line ∧ (before = [] ∨ before.getLast? = some Bytes.lineFeed) ∧
      Bytes.lineFeed ∉ line := by
  induction t using List.reverseRecOn with
  | nil => exact ⟨[], [], rfl, .inl rfl, List.not_mem_nil⟩
  | append_singleton t b ih =>
    by_cases hb : b = Bytes.lineFeed
    · exact ⟨t ++ [b], [], by simp, .inr (by simp [hb]), List.not_mem_nil⟩
    · obtain ⟨before, line, rfl, hbefore, hline⟩ := ih
      refine ⟨before, line ++ [b], by simp, hbefore, ?_⟩
      simp [hline, Ne.symm hb]

theorem exists_first_line (t : Bytes) :
    ∃ line after, t = line ++ after ∧ Bytes.lineFeed ∉ line ∧
      (after = [] ∨ after.head? = some Bytes.lineFeed) := by
  induction t with
  | nil => exact ⟨[], [], rfl, List.not_mem_nil, .inl rfl⟩
  | cons b t ih =>
    by_cases hb : b = Bytes.lineFeed
    · exact ⟨[], b :: t, rfl, List.not_mem_nil, .inr (by simp [hb])⟩
    · obtain ⟨line, after, rfl, hline, hafter⟩ := ih
      refine ⟨b :: line, after, rfl, ?_, hafter⟩
      simp [hline, Ne.symm hb]

theorem exists_lineAround {text : Bytes} {pos : Nat} (hpos : pos ≤ text.length) :
    ∃ before line after, LineAround text pos before line after := by
  obtain ⟨before, front, hfront, hbefore, hfrontLine⟩ := exists_last_line (text.take pos)
  obtain ⟨back, after, hback, hbackLine, hafter⟩ := exists_first_line (text.drop pos)
  have hlength : pos = before.length + front.length := by
    rw [← List.length_append, ← hfront, List.length_take_of_le hpos]
  refine ⟨before, front ++ back, after, ?_, hbefore, ?_, hafter, ?_, ?_⟩
  · rw [← List.take_append_drop pos text, hfront, hback]
    simp only [List.append_assoc]
  · simp [hfrontLine, hbackLine]
  · omega
  · rw [List.length_append]
    omega

variable {text before line after : Bytes} {pos : Nat}

/-- A line ends in front of a line feed or at the end. -/
theorem takeWhile_line {line rest : Bytes} (hline : Bytes.lineFeed ∉ line)
    (hrest : rest = [] ∨ rest.head? = some Bytes.lineFeed) :
    (line ++ rest).takeWhile (· != Bytes.lineFeed) = line := by
  have hall : ∀ b ∈ line, (b != Bytes.lineFeed) = true := by
    intro b hb
    exact bne_iff_ne.2 fun h => hline (h ▸ hb)
  refine (takeWhile_append_stop hall fun b hb => ?_).1
  rcases hrest with rfl | hrest
  · cases hb
  · rw [hrest] at hb
    cases hb
    rfl

/-- The line around an offset is found. -/
theorem LineAround.lineAt_eq (h : LineAround text pos before line after) :
    lineAt text pos = (Bytes.dropTrailing Bytes.carriageReturn line, before.length) := by
  have htake : text.take pos = before ++ line.take (pos - before.length) := by
    rw [h.text_eq, List.append_assoc, List.take_append, List.take_of_length_le h.start_le,
      List.take_append_of_le_length (Nat.sub_le_iff_le_add'.2 h.le_stop)]
  have hstart : afterLastLineFeed (text.take pos) = before.length := by
    have hback : before.reverse = [] ∨ before.reverse.head? = some Bytes.lineFeed := by
      rw [List.reverse_eq_nil_iff, List.head?_reverse]
      exact h.starts
    have hfront : Bytes.lineFeed ∉ (line.take (pos - before.length)).reverse :=
      fun hmem => h.noLineFeed (List.mem_of_mem_take (List.mem_reverse.1 hmem))
    unfold afterLastLineFeed
    rw [htake, List.reverse_append, takeWhile_line hfront hback, List.length_append,
      List.length_reverse, Nat.add_sub_cancel]
  have hdrop : text.drop before.length = line ++ after := by
    rw [h.text_eq, List.append_assoc, List.drop_left]
  unfold lineAt
  simp only
  rw [hstart, hdrop, takeWhile_line h.noLineFeed h.ends]

/-! ### Columns of plain text -/

/-- Is the byte a printable ASCII character? -/
def isPrintable (b : UInt8) : Bool := 0x20 ≤ b && b < 0x7f

theorem isPrintable_iff {b : UInt8} : isPrintable b = true ↔ 0x20 ≤ b.toNat ∧ b.toNat < 0x7f := by
  simp [isPrintable, UInt8.le_iff_toNat_le, UInt8.lt_iff_toNat_lt]

theorem toNat_of_printable {b : UInt8} (h : isPrintable b = true) :
    (Char.ofNat b.toNat).toNat = b.toNat := by
  have hb := isPrintable_iff.1 h
  exact Utf8.toNat_ofNat_char (by omega)

theorem lt_of_printable {b : UInt8} (h : isPrintable b = true) : b < 0x80 := by
  have hb := isPrintable_iff.1 h
  exact UInt8.lt_iff_toNat_lt.2 (by simp only [UInt8.toNat_ofNat]; omega)

theorem ofChar_of_printable {b : UInt8} (h : isPrintable b = true) :
    Width.ofChar (Char.ofNat b.toNat) = 1 := by
  have hb := isPrintable_iff.1 h
  have hn := toNat_of_printable h
  unfold Width.ofChar
  simp only [hn]
  rw [if_neg (by simp; omega), if_pos (by omega)]

theorem classOf_of_printable {b : UInt8} (h : isPrintable b = true) :
    Grapheme.classOf (Char.ofNat b.toNat) = .other := by
  have hb := isPrintable_iff.1 h
  have hn := toNat_of_printable h
  unfold Grapheme.classOf
  simp only [hn]
  rw [if_neg (by omega), if_neg (by omega), if_pos (by simp; omega)]

/-- The blank that brings the mark past a byte: a tab past a tab, a space past any other. -/
def blankUnder (b : UInt8) : UInt8 := if b = 0x09 then 0x09 else 0x20

theorem padding_cons_of_lt {b : UInt8} (h : b < 0x80) (bs : Bytes) :
    Diagnostic.padding (b :: bs) = Diagnostic.padding [b] ++ Diagnostic.padding bs := by
  unfold Diagnostic.padding
  rw [Utf8.runes_cons_of_lt h, Utf8.runes_cons_of_lt h, Utf8.runes_nil]
  simp

theorem padding_of_printable {b : UInt8} (h : isPrintable b = true) :
    Diagnostic.padding [b] = [0x20] := by
  have hb := isPrintable_iff.1 h
  have htab : Char.ofNat b.toNat ≠ '\t' := by
    intro heq
    have hn := toNat_of_printable h
    rw [heq] at hn
    have : ('\t' : Char).toNat = 9 := rfl
    omega
  unfold Diagnostic.padding
  rw [Utf8.runes_cons_of_lt (lt_of_printable h), Utf8.runes_nil]
  simp [htab, ofChar_of_printable h, Bytes.copies]

/-- Every byte of plain text takes one blank. -/
theorem padding_of_plain {t : Bytes} (h : ∀ b ∈ t, isPrintable b = true ∨ b = 0x09) :
    Diagnostic.padding t = t.map blankUnder := by
  induction t with
  | nil => rfl
  | cons b t ih =>
    have ih := ih fun c hc => h c (List.mem_cons_of_mem _ hc)
    rcases h b List.mem_cons_self with hb | rfl
    · have htab : b ≠ 0x09 := by
        rintro rfl
        cases hb
      rw [padding_cons_of_lt (lt_of_printable hb), padding_of_printable hb, ih, List.map_cons,
        blankUnder, if_neg htab]
      rfl
    · rw [padding_cons_of_lt (by decide), ih]
      rfl

/-- Characters of no class of their own are clusters by themselves. -/
theorem clustersFrom_of_other : ∀ {cs : List Char}, (∀ c ∈ cs, Grapheme.classOf c = .other) →
    ∀ first, Grapheme.clustersFrom .any [first] cs = [first] :: cs.map fun c => [c]
  | [], _, _ => rfl
  | c :: cs, h, first => by
    have hclass := h c List.mem_cons_self
    rw [Grapheme.clustersFrom, hclass]
    exact congrArg ([first] :: ·)
      (clustersFrom_of_other (fun d hd => h d (List.mem_cons_of_mem _ hd)) c)

theorem clusters_of_other {cs : List Char} (h : ∀ c ∈ cs, Grapheme.classOf c = .other) :
    Grapheme.clusters cs = cs.map fun c => [c] := by
  cases cs with
  | nil => rfl
  | cons c cs =>
    have hclass := h c List.mem_cons_self
    unfold Grapheme.clusters
    rw [Grapheme.clustersFrom, hclass]
    exact clustersFrom_of_other (fun d hd => h d (List.mem_cons_of_mem _ hd)) c

theorem chars_of_printable {t : Bytes} (h : ∀ b ∈ t, isPrintable b = true) :
    (Utf8.runes t).map Rune.char = t.map fun b => Char.ofNat b.toNat := by
  induction t with
  | nil => rfl
  | cons b t ih =>
    rw [Utf8.runes_cons_of_lt (lt_of_printable (h b List.mem_cons_self)), List.map_cons,
      ih fun c hc => h c (List.mem_cons_of_mem _ hc), List.map_cons]

/-- A printable text takes a column for every byte. -/
theorem ofText_of_printable {t : Bytes} (h : ∀ b ∈ t, isPrintable b = true) :
    Width.ofText t = t.length := by
  have hother : ∀ c ∈ t.map (fun b => Char.ofNat b.toNat), Grapheme.classOf c = .other := by
    intro c hc
    obtain ⟨b, hb, rfl⟩ := List.mem_map.1 hc
    exact classOf_of_printable (h b hb)
  have hsum (n : Nat) : ((t.map fun b => Char.ofNat b.toNat).map fun c => [c]).foldl
      (fun n cs => n + Width.ofCluster cs) n = n + t.length := by
    clear hother
    induction t generalizing n with
    | nil => rfl
    | cons b t ih =>
      have hone : Width.ofCluster [Char.ofNat b.toNat] = 1 := by
        simp [Width.ofCluster, ofChar_of_printable (h b List.mem_cons_self)]
      simp only [List.map_cons, List.foldl_cons, hone, List.length_cons]
      rw [ih (fun c hc => h c (List.mem_cons_of_mem _ hc))]
      omega
  unfold Width.ofText
  rw [chars_of_printable h, clusters_of_other hother, hsum, Nat.zero_add]

/-! ### The marker line -/

theorem blank_of_padding {t : Bytes} : ∀ b ∈ Diagnostic.padding t, b = 0x09 ∨ b = 0x20 := by
  intro b hb
  obtain ⟨r, -, hr⟩ := List.mem_flatMap.1 hb
  split_ifs at hr with htab
  · exact .inl (List.mem_singleton.1 hr)
  · exact .inr (List.eq_of_mem_replicate hr)

/-- The part of a span on the line, which is empty if the span ends before it starts. -/
theorem of_max (text : Bytes) (lo hi : Nat) :
    Span.of ⟨lo, max lo hi⟩ text = Span.of ⟨lo, hi⟩ text := by
  simp only [Span.of]
  congr 1
  omega

/-- What is shown for a span: the message, the line around the start of the span and the marker
line, which is plain in any case. -/
theorem render_of_lineAround {span : Span} (message : Bytes)
    (h : LineAround text (min span.lo text.length) before line after) :
    Diagnostic.render text message span = .ok (utf8 "error: " ++ message ++ utf8 "\n" ++
      Bytes.dropTrailing Bytes.carriageReturn line ++ utf8 "\n" ++
      Diagnostic.padding (Span.of ⟨before.length, min span.lo text.length⟩ text) ++ utf8 "^" ++
      Bytes.copies (Width.ofText (Span.of ⟨min span.lo text.length, min span.hi (before.length +
        (Bytes.dropTrailing Bytes.carriageReturn line).length)⟩ text) - 1) 0x7e ++ utf8 "\n") := by
  rw [Diagnostic.render_eq]
  simp only [h.lineAt_eq, of_max]

/-- Whatever the span of a mistake and whatever contexts the error has been given, showing it cuts
nothing outside the text.  It shows the message, the line around the start of the span (around the
end of the text, if the span starts behind it) less one carriage return, and a marker line of
blanks, a caret and tildes.  Where the line is plain, there is one blank for every byte before the
span, and the caret and the tildes take one column for every byte of the span on the line, at least
one. -/
theorem render_marks_span (text : Bytes) {r : Report} {message : Bytes} {span : Span}
    (h : r.marked? = some (message, span)) :
    let start := min span.lo text.length
    (∃ shown, Diagnostic.ofReport text r = .ok shown) ∧
      (∃ before line after, LineAround text start before line after) ∧
      ∀ before line after, LineAround text start before line after →
        let shown := Bytes.dropTrailing Bytes.carriageReturn line
        let stop := min span.hi (before.length + shown.length)
        ∃ blanks tildes,
          Diagnostic.ofReport text r = .ok (utf8 "error: " ++ message ++ utf8 "\n" ++ shown ++
            utf8 "\n" ++ blanks ++ utf8 "^" ++ Bytes.copies tildes 0x7e ++ utf8 "\n") ∧
          (∀ b ∈ blanks, b = 0x09 ∨ b = 0x20) ∧
          ((∀ b ∈ Span.of ⟨before.length, start⟩ text, isPrintable b = true ∨ b = 0x09) →
            (∀ b ∈ Span.of ⟨start, stop⟩ text, isPrintable b = true) →
            blanks = (Span.of ⟨before.length, start⟩ text).map blankUnder ∧
              tildes = max 1 (stop - start) - 1) := by
  intro start
  have hreport : Diagnostic.ofReport text r = Diagnostic.render text message span := by
    unfold Diagnostic.ofReport
    rw [h]
  rw [hreport]
  refine ⟨⟨_, Diagnostic.render_eq text message span⟩,
    exists_lineAround (Nat.min_le_right _ _), fun before line after hline => ?_⟩
  intro shown stop
  refine ⟨_, _, render_of_lineAround message hline, blank_of_padding, fun hbefore hmarked => ?_⟩
  refine ⟨padding_of_plain hbefore, ?_⟩
  have hstop : stop ≤ text.length := by
    have hend := Diagnostic.lineAt_end_le (Nat.min_le_right span.lo text.length)
    rw [hline.lineAt_eq] at hend
    exact Nat.le_trans (Nat.min_le_right _ _) hend
  have hlength : (Span.of ⟨start, stop⟩ text).length = stop - start := by
    simp only [Span.of, List.length_take, List.length_drop]
    omega
  rw [ofText_of_printable hmarked, hlength]
  omega

/-- An error with a context, whose span starts behind a tab and a space and ends on a later line. -/
theorem render_marks_span_across_lines :
    let text := utf8 "ok\n\tab cd\r\nz"
    let r := Report.wrapped (utf8 "load") (.failed ⟨.undefinedSymbol, ⟨7, 12⟩⟩)
    r.marked? = some (utf8 "undefined symbol", ⟨7, 12⟩) ∧
      Diagnostic.ofReport text r = .ok (utf8 "error: undefined symbol\n\tab cd\n\t   ^~\n") := by
  intro text r
  have hmarked : r.marked? = some (utf8 "undefined symbol", ⟨7, 12⟩) := rfl
  have hline : LineAround text 7 (utf8 "ok\n") (utf8 "\tab cd\r") (utf8 "\nz") :=
    ⟨rfl, .inr rfl, by decide, .inr rfl, by decide, by decide⟩
  have hbefore : (utf8 "\tab ").all (fun b => isPrintable b || b == 0x09) = true := rfl
  obtain ⟨blanks, tildes, hshown, -, hplain⟩ :=
    (render_marks_span text hmarked).2.2 _ _ _ hline
  obtain ⟨rfl, rfl⟩ := hplain
    (fun b hb => by simpa using List.all_eq_true.1 hbefore b hb) (List.all_eq_true.1 rfl)
  exact ⟨hmarked, hshown⟩

end SpanLisp
