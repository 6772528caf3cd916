import SpanLisp.Proofs.Parsing

/-!
# The grammar of scripts

A script is accepted exactly if its text lexes, its delimiters form a matched word of parentheses
and brackets (`Balanced`), its integers fit, and no delimiter is nested beyond the limit
(`Shallow`).  The parser keeps the open delimiters on a stack; `Matches` is what it does to that
stack alone.
-/

namespace SpanLisp

/-! ### Words of delimiters -/

/-- Is the token a delimiter? -/
def Token.Kind.isDelimiter : Token.Kind → Bool
  | .opening _ | .closing _ => true
  | _ => false

/-- The delimiters of a sequence of tokens, in order. -/
def delimiters (ts : List Token) : List Token.Kind := (ts.map Token.kind).filter (·.isDelimiter)

/-- Words in which every parenthesis and every bracket is closed by its own kind, in order, and
which hold no brace. -/
inductive Balanced : List Token.Kind → Prop
  /-- The empty word. -/
  | nil : Balanced []
  /-- A matched pair around a word, and a word behind it. -/
  | pair {d : Delim} {u v : List Token.Kind} (hd : d ≠ .brace) (hu : Balanced u) (hv : Balanced v) :
      Balanced (.opening d :: u ++ .closing d :: v)

/-- The number of delimiters that a word leaves open. -/
def openAfter (w : List Token.Kind) : Nat :=
  w.countP (· matches .opening _) - w.countP (· matches .closing _)

/-- The word opens `k` delimiters more than it closes. -/
def Raises (k : Nat) (w : List Token.Kind) : Prop :=
  w.countP (· matches .opening _) = w.countP (· matches .closing _) + k

/-- No delimiter of the word is nested more than `limit` deep; 0 means no limit. -/
def Shallow (limit : Nat) (w : List Token.Kind) : Prop :=
  0 < limit → ∀ u d v, w = u ++ .opening d :: v → openAfter u + 1 ≤ limit

/-- The word closes the open delimiters `ds`, innermost first, and its own, and opens none beyond
the limit. -/
def Matches (limit : Nat) : List Delim → List Token.Kind → Prop
  | ds, .opening d :: w =>
    d ≠ .brace ∧ ¬ (0 < limit ∧ limit < ds.length + 1) ∧ Matches limit (d :: ds) w
  | d :: ds, .closing d' :: w => d' = d ∧ Matches limit ds w
  | ds, w => ds = [] ∧ w = []

theorem raises_nil : Raises 0 [] := rfl

theorem raises_opening (d : Delim) : Raises 1 [.opening d] := rfl

theorem Raises.append {j k : Nat} {u v : List Token.Kind} (hu : Raises j u) (hv : Raises k v) :
    Raises (j + k) (u ++ v) := by
  unfold Raises at *
  rw [List.countP_append, List.countP_append]
  omega

/-- The closing delimiter takes back what the opening one raised. -/
theorem Raises.between {k : Nat} {w : List Token.Kind} (h : Raises k w) (d : Delim) :
    Raises k (.opening d :: w ++ [.closing d]) := by
  unfold Raises at *
  rw [List.countP_append, List.countP_append]
  simp only [List.countP_cons, List.countP_nil, if_true, Bool.false_eq_true, if_false]
  omega

theorem Raises.closing {k : Nat} {w : List Token.Kind} (h : Raises (k + 1) w) (d : Delim) :
    Raises k (w ++ [.closing d]) := by
  unfold Raises at *
  rw [List.countP_append, List.countP_append]
  simp only [List.countP_cons, List.countP_nil, if_true, Bool.false_eq_true, if_false]
  omega

theorem Raises.openAfter_eq {k : Nat} {w : List Token.Kind} (h : Raises k w) : openAfter w = k := by
  unfold Raises at h
  unfold openAfter
  omega

/-- Behind delimiters that are open, less is nested than with them. -/
theorem Shallow.of_raises {limit k : Nat} {u w v : List Token.Kind}
    (h : Shallow limit (u ++ w ++ v)) (hu : Raises k u) : Shallow limit w := by
  rintro hpos x d y rfl
  have hle := h hpos (u ++ x) d (y ++ v) (by simp)
  unfold Raises at hu
  simp only [openAfter, List.countP_append] at hle ⊢
  omega

/-! ### Matching is being balanced -/

theorem matches_append_of_balanced {u : List Token.Kind} (hu : Balanced u) :
    ∀ {ds : List Delim} {v : List Token.Kind}, Matches 0 ds v → Matches 0 ds (u ++ v) := by
  induction hu with
  | nil => exact fun h => h
  | pair hd _ _ ihu ihv =>
    intro ds v h
    rw [List.append_assoc, List.cons_append]
    refine ⟨hd, by omega, ihu ?_⟩
    rw [List.cons_append]
    exact ⟨rfl, ihv h⟩

/-- A word that closes the delimiters `ds` consists of balanced words with these closing delimiters
between them. -/
def Closes : List Delim → List Token.Kind → Prop
  | [], w => Balanced w
  | d :: ds, w => ∃ u v, w = u ++ .closing d :: v ∧ Balanced u ∧ Closes ds v

theorem closes_of_pair {d : Delim} {u v : List Token.Kind} (hd : d ≠ .brace) (hu : Balanced u) :
    ∀ {ds : List Delim}, Closes ds v → Closes ds (.opening d :: u ++ .closing d :: v)
  | [], hv => .pair hd hu hv
  | e :: _, ⟨u', v', hv, hu', hv'⟩ => by
    refine ⟨.opening d :: u ++ .closing d :: u', v', ?_, .pair hd hu hu', hv'⟩
    rw [hv]
    simp only [List.cons_append, List.append_assoc]

theorem closes_of_matches :
    ∀ {w : List Token.Kind} {ds : List Delim}, Matches 0 ds w → Closes ds w
  | [], [], _ => .nil
  | [], _ :: _, h => absurd h.1 (List.cons_ne_nil _ _)
  | .opening d :: w, ds, ⟨hd, _, h⟩ => by
    -- The rest closes `d` first: up to there it is the inside of the new pair.
    obtain ⟨u, v, rfl, hu, hv⟩ := closes_of_matches h
    exact closes_of_pair hd hu hv
  | .closing _ :: w, [], h => absurd h.2 (List.cons_ne_nil _ _)
  | .closing _ :: w, d :: ds, ⟨rfl, h⟩ => ⟨[], w, rfl, .nil, closes_of_matches h⟩
  | .integer :: _, _, h | .string :: _, _, h | .symbol :: _, _, h | .blank :: _, _, h => by
    simp [Matches] at h

theorem matches_iff_balanced {w : List Token.Kind} : Matches 0 [] w ↔ Balanced w := by
  constructor
  · exact closes_of_matches
  · intro h
    have happ : Matches 0 [] (w ++ []) := matches_append_of_balanced h ⟨rfl, rfl⟩
    rwa [List.append_nil] at happ

/-! ### The limit -/

/-- With `depth` delimiters open before the word, none of it is nested more than `limit` deep. -/
def Bounded (limit depth : Nat) (w : List Token.Kind) : Prop :=
  ∀ u d v, w = u ++ .opening d :: v →
    depth + u.countP (· matches .opening _) + 1 ≤ u.countP (· matches .closing _) + limit

theorem bounded_opening {limit depth : Nat} {d : Delim} {w : List Token.Kind} :
    Bounded limit depth (.opening d :: w) ↔ depth + 1 ≤ limit ∧ Bounded limit (depth + 1) w := by
  constructor
  · intro h
    refine ⟨by simpa using h [] d w rfl, fun u d' v heq => ?_⟩
    have hle := h (.opening d :: u) d' v (by rw [heq]; rfl)
    simp only [List.countP_cons, if_true, Bool.false_eq_true, if_false] at hle
    omega
  · rintro ⟨hdepth, hrest⟩ (_ | ⟨k, u⟩) d' v heq
    · simp only [List.countP_nil]
      omega
    · rw [List.cons_append, List.cons.injEq] at heq
      obtain ⟨rfl, heq⟩ := heq
      have hle := hrest u d' v heq
      simp only [List.countP_cons, if_true, Bool.false_eq_true, if_false]
      omega

theorem bounded_closing {limit depth : Nat} {d : Delim} {w : List Token.Kind} :
    Bounded limit (depth + 1) (.closing d :: w) ↔ Bounded limit depth w := by
  constructor
  · intro h u d' v heq
    have hle := h (.closing d :: u) d' v (by rw [heq]; rfl)
    simp only [List.countP_cons, if_true, Bool.false_eq_true, if_false] at hle
    omega
  · rintro hrest (_ | ⟨k, u⟩) d' v heq
    · cases heq
    · rw [List.cons_append, List.cons.injEq] at heq
      obtain ⟨rfl, heq⟩ := heq
      have hle := hrest u d' v heq
      simp only [List.countP_cons, if_true, Bool.false_eq_true, if_false]
      omega

theorem matches_limit_iff {limit : Nat} (hlimit : 0 < limit) :
    ∀ {w : List Token.Kind} {ds : List Delim},
      Matches limit ds w ↔ Matches 0 ds w ∧ Bounded limit ds.length w
  | [], ds => by simp [Matches, Bounded]
  | .opening d :: w, ds => by
    rw [Matches, Matches, matches_limit_iff hlimit, bounded_opening, List.length_cons]
    constructor
    · rintro ⟨hd, hdepth, hmatch, hrest⟩
      exact ⟨⟨hd, by omega, hmatch⟩, by omega, hrest⟩
    · rintro ⟨⟨hd, -, hmatch⟩, hdepth, hrest⟩
      exact ⟨hd, by omega, hmatch, hrest⟩
  | .closing d :: w, [] => by simp [Matches]
  | .closing d :: w, e :: ds => by
    rw [Matches, Matches, matches_limit_iff hlimit, and_assoc, List.length_cons, bounded_closing]
  | .integer :: w, ds | .string :: w, ds | .symbol :: w, ds | .blank :: w, ds => by simp [Matches]

theorem matches_iff {limit : Nat} {w : List Token.Kind} :
    Matches limit [] w ↔ Balanced w ∧ Shallow limit w := by
  rw [← matches_iff_balanced]
  rcases Nat.eq_zero_or_pos limit with rfl | hlimit
  · simp [Shallow]
  · rw [matches_limit_iff hlimit]
    refine and_congr_right fun _ => ⟨fun h _ u d v heq => ?_, fun h u d v heq => ?_⟩
    · have := h u d v heq
      simp only [openAfter, List.length_nil] at this ⊢
      omega
    · have := h hlimit u d v heq
      simp only [openAfter, List.length_nil] at this ⊢
      omega

/-! ### The parser's stack -/

namespace Parser

/-- The delimiters of the open sequences, innermost first. -/
def State.delims (st : State) : List Delim := st.pending.map Pending.delim

theorem State.delims_add (st : State) (e : Expr) : (st.add e).delims = st.delims := by
  unfold State.add State.delims
  split <;> simp [*]

theorem lineIsOver_script (st : State) : st.lineIsOver .script = false := by
  simp [State.lineIsOver]

/-- All integer literals fit. -/
def IntegersFit (ts : List Token) : Prop :=
  ∀ t ∈ ts, t.kind = .integer → Decimal.toNat t.text ≤ maxInteger

theorem integersFit_cons {t : Token} {ts : List Token} :
    IntegersFit (t :: ts) ↔
      (t.kind = .integer → Decimal.toNat t.text ≤ maxInteger) ∧ IntegersFit ts := by
  simp [IntegersFit]

theorem delimiters_cons (t : Token) (ts : List Token) :
    delimiters (t :: ts) =
      if t.kind.isDelimiter then t.kind :: delimiters ts else delimiters ts := by
  simp [delimiters, List.filter_cons]

theorem State.length_delims (st : State) : st.delims.length = st.pending.length :=
  List.length_map _

theorem State.delims_of_pending {st : State} {p : Pending} {ps : List Pending}
    (h : st.pending = p :: ps) : st.delims = p.delim :: ps.map Pending.delim := by
  simp [State.delims, h]

theorem Reads.integer_fits {mode : Mode} {limit : Nat} {st st' : State} {t : Token}
    (h : Reads mode limit st t st') (hk : t.kind = .integer) :
    Decimal.toNat t.text ≤ maxInteger := by
  cases h with
  | integer _ _ hfits => exact hfits
  | blank hk' | string hk' | word hk' | opening _ hk' | closing _ _ _ hk' =>
    rw [hk] at hk'
    cases hk'

/-- A token that is read puts its own delimiter, if it is one, before a matching word. -/
theorem Reads.matches_cons {mode : Mode} {limit : Nat} {st st' : State} {t : Token}
    (h : Reads mode limit st t st') {ts : List Token}
    (hmatch : Matches limit st'.delims (delimiters ts)) :
    Matches limit st.delims (delimiters (t :: ts)) := by
  rw [delimiters_cons]
  cases h with
  | blank hk =>
    rw [hk]
    exact hmatch
  | integer hk | string hk | word hk =>
    rw [State.delims_add] at hmatch
    rw [hk]
    exact hmatch
  | opening d hk _ hd hlimit =>
    rw [hk]
    exact ⟨hd, by rwa [State.length_delims], hmatch⟩
  | closing p ps hp hk =>
    rw [State.delims_add] at hmatch
    rw [hk, State.delims_of_pending hp]
    exact ⟨rfl, hmatch⟩

/-- A token is read in a script if its integer fits and its delimiter starts a matching word. -/
theorem exists_reads {limit : Nat} {st : State} {t : Token} {ts : List Token}
    (hmatch : Matches limit st.delims (delimiters (t :: ts)))
    (hfits : t.kind = .integer → Decimal.toNat t.text ≤ maxInteger) :
    ∃ st', Reads .script limit st t st' ∧ Matches limit st'.delims (delimiters ts) := by
  have hover := lineIsOver_script st
  rw [delimiters_cons] at hmatch
  cases hk : t.kind with
  | blank =>
    rw [hk] at hmatch
    exact ⟨_, .blank hk, hmatch⟩
  | integer =>
    rw [hk] at hmatch
    exact ⟨_, .integer hk hover (hfits hk), by rwa [State.delims_add]⟩
  | string =>
    rw [hk] at hmatch
    exact ⟨_, .string hk hover, by rwa [State.delims_add]⟩
  | symbol =>
    rw [hk] at hmatch
    exact ⟨_, .word hk hover, by rwa [State.delims_add]⟩
  | opening d =>
    rw [hk] at hmatch
    obtain ⟨hd, hlimit, hmatch⟩ := hmatch
    rw [State.length_delims] at hlimit
    exact ⟨_, .opening d hk hover hd hlimit, hmatch⟩
  | closing d =>
    rw [hk] at hmatch
    cases hp : st.pending with
    | nil =>
      have hdelims : st.delims = [] := by simp [State.delims, hp]
      rw [hdelims] at hmatch
      exact absurd hmatch.2 (List.cons_ne_nil _ _)
    | cons p ps =>
      rw [State.delims_of_pending hp] at hmatch
      obtain ⟨rfl, hmatch⟩ := hmatch
      exact ⟨_, .closing p ps hp hk hover, by rw [State.delims_add]; exact hmatch⟩

/-- A script can be read to its end, with nothing left open, exactly if its integers fit and its
delimiters match the open ones. -/
theorem steps_iff_matches {limit : Nat} :
    ∀ {ts : List Token} {st : State}, (∃ st', Steps .script limit st ts st' ∧ st'.pending = []) ↔
      Matches limit st.delims (delimiters ts) ∧ IntegersFit ts
  | [], st => by
    have hend : (∃ st', Steps .script limit st [] st' ∧ st'.pending = []) ↔ st.pending = [] :=
      ⟨fun ⟨_, rfl, h⟩ => h, fun h => ⟨st, rfl, h⟩⟩
    rw [hend]
    simp [Matches, delimiters, IntegersFit, State.delims]
  | t :: ts, st => by
    rw [integersFit_cons]
    constructor
    · rintro ⟨st', ⟨st₁, hread, hsteps⟩, hpending⟩
      obtain ⟨hmatch, hints⟩ := steps_iff_matches.1 ⟨st', hsteps, hpending⟩
      exact ⟨hread.matches_cons hmatch, hread.integer_fits, hints⟩
    · rintro ⟨hmatch, hfits, hints⟩
      obtain ⟨st₁, hread, hmatch⟩ := exists_reads hmatch hfits
      obtain ⟨st', hsteps, hpending⟩ := steps_iff_matches.2 ⟨hmatch, hints⟩
      exact ⟨st', ⟨st₁, hread, hsteps⟩, hpending⟩

end Parser

/-! ### Scripts -/

/-- A script is accepted exactly if it lexes, its delimiters are balanced parentheses and brackets
within the limit and its integers fit 64 bits.  Its trees then hold exactly its tokens, blanks left
out, and every leaf is what the bytes of its token dictate. -/
theorem parseAll_accepts_iff_and_keeps (limit : Nat) (text : Bytes) (names : Interner) :
    ((∃ es, (parseAll limit text names).1 = .ok es) ↔
      (tokens text).2 = none ∧ Balanced (delimiters (tokens text).1) ∧
        (∀ t ∈ (tokens text).1, t.kind = .integer →
          Decimal.toNat t.text ≤ 9223372036854775807) ∧
        Shallow limit (delimiters (tokens text).1)) ∧
    ∀ es, (parseAll limit text names).1 = .ok es →
      Expr.tokensAll text es = (tokens text).1.filter (·.kind ≠ .blank) ∧
      Expr.FaithfulAll text (parseAll limit text names).2 false es := by
  constructor
  · constructor
    · rintro ⟨es, hes⟩
      obtain ⟨hnone, st', hsteps, hpending, -, -⟩ :=
        Parser.parse_ok_iff.1 (Prod.ext hes rfl : parseAll limit text names = (.ok es, _))
      obtain ⟨hmatch, hints⟩ := Parser.steps_iff_matches.1 ⟨st', hsteps, hpending⟩
      obtain ⟨hbalanced, hshallow⟩ := matches_iff.1 hmatch
      exact ⟨hnone, hbalanced, hints, hshallow⟩
    · rintro ⟨hnone, hbalanced, hints, hshallow⟩
      have hmatch : Matches limit (Parser.State.delims { names := names })
          (delimiters (tokens text).1) := matches_iff.2 ⟨hbalanced, hshallow⟩
      obtain ⟨st', hsteps, hpending⟩ := Parser.steps_iff_matches.2 ⟨hmatch, hints⟩
      have hparse : parseAll limit text names = (.ok st'.complete.reverse, st'.names) :=
        Parser.parse_ok_iff.2 ⟨hnone, st', hsteps, hpending, rfl, rfl⟩
      exact ⟨_, congrArg Prod.fst hparse⟩
  · intro es hes
    exact Parser.parse_ok (Prod.ext hes rfl : parseAll limit text names = (.ok es, _))

end SpanLisp
