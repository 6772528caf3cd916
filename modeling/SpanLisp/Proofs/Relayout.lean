import SpanLisp.Proofs.Places
import SpanLisp.Proofs.TwoSessions

/-! Blanks only keep tokens apart: texts with the same tokens, blanks left out, are read and
evaluated the same way, and what fails fails at the same token or the same node. -/

namespace SpanLisp

/-- The tokens of a text, blanks left out. -/
def solidTokens (text : Bytes) : List Token := (tokens text).1.filter (·.kind ≠ .blank)

/-- Both texts lex without error, and into the same tokens if blanks are left out. -/
structure SameTokens (a b : Bytes) : Prop where
  left : (tokens a).2 = none
  right : (tokens b).2 = none
  same : (solidTokens a).map (fun t => (t.kind, t.text)) =
    (solidTokens b).map fun t => (t.kind, t.text)

instance (a b : Bytes) : Decidable (SameTokens a b) :=
  decidable_of_iff (_ ∧ _ ∧ _) ⟨fun h => ⟨h.1, h.2.1, h.2.2⟩, fun h => ⟨h.left, h.right, h.same⟩⟩

theorem SameTokens.essences_eq {a b : Bytes} (h : SameTokens a b) :
    essences (tokens a).1 = essences (tokens b).1 := by
  have hessence := congrArg (List.map fun p : Token.Kind × Bytes =>
    (p.1, if p.1 = .integer then Decimal.ofNat (Decimal.toNat p.2) else p.2)) h.same
  rwa [List.map_map, List.map_map] at hessence

/-! ### Reading -/

/-- The errors are of one kind and blame the tokens of the same number, or both the end. -/
inductive SyntaxError.Corresponds (a b : Bytes) : SyntaxError → SyntaxError → Prop
  | token (kind : SyntaxError.Kind) (n : Nat) {t u : Token} (ht : (solidTokens a)[n]? = some t)
      (hu : (solidTokens b)[n]? = some u) : Corresponds a b ⟨kind, t.span⟩ ⟨kind, u.span⟩
  | ended (kind : SyntaxError.Kind) :
      Corresponds a b ⟨kind, .point a.length⟩ ⟨kind, .point b.length⟩

/-- The readings end in the same trees but for the places, or in corresponding errors. -/
inductive SameReading (a b : Bytes) :
    Except SyntaxError (List Expr) → Except SyntaxError (List Expr) → Prop
  | ok {es es' : List Expr} (h : Expr.bareAll a es = Expr.bareAll b es') :
      SameReading a b (.ok es) (.ok es')
  | error {e e' : SyntaxError} (h : e.Corresponds a b e') : SameReading a b (.error e) (.error e')

namespace Parser

variable {mode : Mode} {limit : Nat} {a b : Bytes}

/-- A token with the same essence is refused for the same reason. -/
theorem step_error_alike {st st' : State} {t u : Token} {kind : SyntaxError.Kind}
    (h : step mode limit st t = .error ⟨kind, t.span⟩) (hst : State.Alike a b st st')
    (htu : t.essence = u.essence) : step mode limit st' u = .error ⟨kind, u.span⟩ := by
  have hkind := Token.kind_eq_of_essence htu
  by_cases hblank : t.kind = .blank
  · rw [step_blank hblank] at h
    cases h
  by_cases hover : st.lineIsOver mode = true
  · rw [step_over hblank hover] at h
    rw [step_over (hkind ▸ hblank) (hst.lineIsOver mode ▸ hover)]
    cases h
    rfl
  unfold step at h ⊢
  rw [if_neg hblank, if_neg hover] at h
  rw [if_neg (hkind ▸ hblank), if_neg (hst.lineIsOver mode ▸ hover), ← hkind]
  cases hk : t.kind with
  | blank => exact absurd hk hblank
  | string =>
    rw [hk] at h
    cases h
  | symbol =>
    rw [hk] at h
    cases h
  | integer =>
    rw [hk] at h
    simp only [integer, Token.toNat_eq_of_essence htu hk] at h ⊢
    split_ifs at h ⊢
    · cases h
    · cases h
      rfl
  | opening d =>
    rw [hk] at h
    simp only [hst.length_pending] at h ⊢
    split_ifs at h ⊢ <;> cases h <;> rfl
  | closing d =>
    rw [hk] at h
    simp only at h ⊢
    cases hp : st.pending with
    | nil =>
      have hp' : st'.pending = [] :=
        List.eq_nil_of_length_eq_zero (by rw [← hst.length_pending, hp]; rfl)
      rw [hp] at h
      rw [hp']
      cases h
      rfl
    | cons p ps =>
      obtain ⟨p', ps', hp', hdelim, -⟩ := hst.cons_pending hp
      rw [hp] at h
      rw [hp']
      simp only [hdelim] at h ⊢
      split_ifs at h ⊢
      cases h
      rfl

theorem run_filter (size : Nat) (failure : Option SyntaxError) :
    ∀ (ts : List Token) (st : State), run mode limit size failure ts st =
      run mode limit size failure (ts.filter (·.kind ≠ .blank)) st
  | [], _ => rfl
  | t :: ts, st => by
    by_cases hk : t.kind = .blank
    · rw [List.filter_cons_of_neg (by simp [hk]), run, step_blank hk]
      exact run_filter size failure ts st
    · rw [List.filter_cons_of_pos (by simp [hk]), run, run]
      cases step mode limit st t with
      | ok st' => exact run_filter size failure ts st'
      | error e => rfl

/-- Texts with the same tokens are read the same way, and the same names are met in them. -/
theorem sameReading_parse (h : SameTokens a b) (mode : Mode) (limit : Nat) (names : Interner) :
    SameReading a b (parse mode limit a names).1 (parse mode limit b names).1 ∧
      (parse mode limit a names).2 = (parse mode limit b names).2 := by
  have hfits (text : Bytes) : ∀ t ∈ solidTokens text, t.Fits text :=
    fun t ht => (laid_tokens text).fits t (List.mem_filter.1 ht).1
  have hsame : (solidTokens a).map Token.essence = (solidTokens b).map Token.essence :=
    h.essences_eq
  unfold parse
  simp only
  rw [h.left, h.right, run_filter a.length, run_filter b.length]
  rw [← solidTokens, ← solidTokens]
  rcases run_cases mode limit a.length none (solidTokens a) { names := names } with
    ⟨st, hsteps, hrun⟩ | ⟨ts, t, rest, st, e, hsplit, hsteps, hstep, hrun⟩
  · obtain ⟨st', hsteps', hst⟩ :=
      steps_alike_of_map hsteps (State.alike_start names) (hfits a) (hfits b) hsame
    have hempty : st.pending.isEmpty = st'.pending.isEmpty := by
      simpa using congrArg List.isEmpty hst.pending
    rw [hrun, run_of_steps hsteps']
    refine ⟨?_, hst.names⟩
    unfold finish
    simp only [hempty]
    split
    · refine .ok ?_
      rw [Expr.bareAll_reverse, Expr.bareAll_reverse, hst.complete]
    · exact .error (.ended _)
  · -- The token that is refused has the same number in both texts.
    rw [hsplit, List.map_append, List.map_cons] at hsame
    obtain ⟨us, more, hsplit', hus, hmore⟩ := List.map_eq_append_iff.1 hsame.symm
    obtain ⟨u, rest', rfl, hu, -⟩ := List.map_eq_cons_iff.1 hmore
    obtain ⟨st', hsteps', hst⟩ := steps_alike_of_map hsteps (State.alike_start names)
      (fun t ht => hfits a t (by rw [hsplit]; exact List.mem_append_left _ ht))
      (fun t ht => hfits b t (by rw [hsplit']; exact List.mem_append_left _ ht)) hus.symm
    obtain ⟨kind, hspan⟩ : ∃ kind, e = ⟨kind, t.span⟩ :=
      ⟨e.kind, by rw [← span_of_step_error hstep]⟩
    subst hspan
    have hstep' := step_error_alike hstep hst hu.symm
    have hlength : ts.length = us.length := by
      simpa using (congrArg List.length hus).symm
    have hrun' : run mode limit b.length none (solidTokens b) { names := names } =
        (.error ⟨kind, u.span⟩, st'.names) := by
      rw [hsplit', run_append hsteps', run, hstep']
    rw [hrun, hrun']
    refine ⟨.error (.token kind ts.length ?_ ?_), hst.names⟩
    · rw [hsplit, List.getElem?_append_right (Nat.le_refl _), Nat.sub_self]
      rfl
    · rw [hsplit', hlength, List.getElem?_append_right (Nat.le_refl _), Nat.sub_self]
      rfl

end Parser

variable {a b : Bytes}

theorem sameReading_parseLine (h : SameTokens a b) (limit : Nat) (names : Interner) :
    SameReading a b ((parseLine limit a names).1.map fun e => [e])
        ((parseLine limit b names).1.map fun e => [e]) ∧
      (parseLine limit a names).2 = (parseLine limit b names).2 := by
  obtain ⟨hread, hnames⟩ := Parser.sameReading_parse h .line limit names
  refine ⟨?_, hnames⟩
  unfold parseLine
  simp only
  generalize (Parser.parse .line limit a names).1 = r, (Parser.parse .line limit b names).1 = r'
    at hread ⊢
  cases hread with
  | error he => exact .error he
  | @ok es es' hbare =>
    refine .ok ?_
    cases es with
    | nil =>
      cases es' with
      | nil => rfl
      | cons _ _ => cases hbare
    | cons _ _ =>
      cases es' with
      | nil => cases hbare
      | cons _ _ => exact congrArg (fun bs => bs.head?.toList) hbare

/-! ### Evaluating -/

/-- The texts, read as the given trees or errors, evaluate the same way: to the same value, or to
faults that are the same but for the places of corresponding nodes, or to corresponding errors. -/
inductive SameAnswer (a b : Bytes) : Except SyntaxError (List Expr) →
    Except SyntaxError (List Expr) → Except Fault Value → Except Fault Value → Prop
  | evaluated {es es' : List Expr} {r r' : Except Fault Value}
      (h : CongruentEnd (Expr.AtSameNode es es') r r') : SameAnswer a b (.ok es) (.ok es') r r'
  | malformed {e e' : SyntaxError} (h : e.Corresponds a b e') :
      SameAnswer a b (.error e) (.error e') (.error (.malformed e)) (.error (.malformed e'))

theorem within_of_readFrom {text : Bytes} :
    ∀ {es : List Expr}, (∀ e ∈ es, e.ReadFrom text) →
      ∀ n ∈ Expr.nodesAll es, n.span.Within text.length
  | [], _, _, hn => nomatch hn
  | e :: _, h, n, hn => by
    rcases List.mem_append.1 hn with hn | hn
    · exact (h e List.mem_cons_self).within n hn
    · exact within_of_readFrom (fun e he => h e (List.mem_cons_of_mem _ he)) n hn

/-- What is evaluated after the same reading, in the places of the trees, ends the same way. -/
theorem sameAnswer_afterReading {α : Type} (trees : α → List Expr)
    {r r' : Except SyntaxError α × Interner}
    (hread : SameReading a b (r.1.map trees) (r'.1.map trees)) (hnames : r.2 = r'.2)
    (ha : ∀ x, r.1 = .ok x → ∀ e ∈ trees x, e.ReadFrom a)
    (hb : ∀ y, r'.1 = .ok y → ∀ e ∈ trees y, e.ReadFrom b) {f g : α → EvalM Value}
    (hfg : ∀ R x y, Expr.CongruentAll a b R (trees x) (trees y) → Parallel R (f x) (g y))
    (s : Session) :
    SameAnswer a b (r.1.map trees) (r'.1.map trees) (s.afterReading r f).result
        (s.afterReading r' g).result ∧
      (s.afterReading r f).session = (s.afterReading r' g).session := by
  obtain ⟨r, names⟩ := r
  obtain ⟨r', _⟩ := r'
  cases hnames
  cases r with
  | error e =>
    cases r' with
    | error e' =>
      cases hread with
      | error he => exact ⟨.malformed he, rfl⟩
    | ok y => cases hread
  | ok x =>
    cases r' with
    | error e' => cases hread
    | ok y =>
      cases hread with
      | ok hbare =>
        have hcongruent := Expr.congruentAll_atSameNode hbare (within_of_readFrom (ha x rfl))
          (within_of_readFrom (hb y rfl))
        obtain ⟨hend, hsession⟩ := (hfg _ x y hcongruent).run { s with names := names }
        exact ⟨.evaluated hend, hsession⟩

theorem sameAnswer_evalLine (h : SameTokens a b) (s : Session) :
    SameAnswer a b ((s.parse a).1.map fun e => [e]) ((s.parse b).1.map fun e => [e])
        (s.evalLine a).result (s.evalLine b).result ∧
      (s.evalLine a).session = (s.evalLine b).session := by
  obtain ⟨hread, hnames⟩ := sameReading_parseLine h s.options.limit s.names
  rw [Session.evalLine_eq_afterReading, Session.evalLine_eq_afterReading]
  refine sameAnswer_afterReading _ hread hnames (fun x hx e he => ?_) (fun y hy e he => ?_)
    (fun R x y hxy => ?_) s
  · obtain rfl := List.mem_singleton.1 he
    exact ⟨_, _, .inl hx⟩
  · obtain rfl := List.mem_singleton.1 he
    exact ⟨_, _, .inl hy⟩
  · cases hxy with
    | cons hxy => exact parallel_eval x hxy

theorem sameAnswer_evalScript (h : SameTokens a b) (s : Session) :
    SameAnswer a b (s.parseScript a).1 (s.parseScript b).1 (s.evalScript a).result
        (s.evalScript b).result ∧
      (s.evalScript a).session = (s.evalScript b).session := by
  obtain ⟨hread, hnames⟩ := Parser.sameReading_parse h .script s.options.limit s.names
  rw [Session.evalScript_eq_afterReading, Session.evalScript_eq_afterReading]
  have hanswer := sameAnswer_afterReading id (by rwa [Except.map_id]) hnames
    (fun es hes e he => ⟨_, _, .inr ⟨es, hes, he⟩⟩) (fun es hes e he => ⟨_, _, .inr ⟨es, hes, he⟩⟩)
    (fun R es es' hes => parallel_evalEach s.options .nil hes) s
  rwa [Except.map_id] at hanswer

end SpanLisp
