import SpanLisp.Eval

/-!
# The frames of a stack

Each operation on a stack is given by one equation where it succeeds, as `push_of_size_eq` for
pushing a frame and `bindAt_of_frame` for binding a symbol.

In a well-formed stack (`Stack.WellFormed`) every place has a frame, and enclosing frames lie below
the frames they enclose.  `Stack.visible` is the map of the bindings that are seen from the top,
each in the first frame that has one.  Looking up a symbol reads this map (`lookup_of_wellFormed`)
and binding one extends it (`visible_bind`).

`Stack.TopChange s s'` says that `s'` differs from `s` at most in the bindings of the top frame.
Whatever a computation does to the top frame of a stack, once that frame is popped the frames are
those from before it was pushed (`popScope_withNamed`).  So a computation of this kind can be run in
a frame of its own without a defect (`EvalM.inFrame_of_change`).
-/

namespace SpanLisp

namespace Stack

/-- Every place has a frame, and enclosing frames lie below. -/
structure WellFormed (s : Stack) : Prop where
  /-- The frames in use are all frames. -/
  size_eq : s.frames.size = s.height
  /-- Every place has a frame, whose enclosing frame lies below. -/
  frame : ∀ place < s.height, ∃ scope, s.frames[place]? = some (some scope) ∧
    ∀ outer, scope.parent = some outer → outer < place

/-- The bindings seen from a place; `fuel` bounds the number of frames. -/
def visibleFrom (s : Stack) : (fuel : Nat) → Option Nat → Bindings
  | fuel + 1, some place =>
    match s.frames[place]? with
    | some (some scope) => visibleFrom s fuel scope.parent ∪ scope.bindings
    | _ => ∅
  | _, _ => ∅

/-- The bindings seen from the top: each symbol has its binding in the first frame, from the top
through the enclosing frames, that has one. -/
def visible (s : Stack) : Bindings := s.visibleFrom s.height s.topPlace?

variable {s s' s'' : Stack}

theorem wellFormed_ofName (name : Bytes) : (ofName name).WellFormed :=
  ⟨rfl, fun _ h => absurd h (Nat.not_lt_zero _)⟩

theorem topPlace?_of_pos (h : 0 < s.height) : s.topPlace? = some (s.height - 1) := by
  unfold topPlace?
  rw [if_neg (by omega)]

theorem lt_height_of_topPlace? {place : Nat} (h : s.topPlace? = some place) :
    place < s.height := by
  unfold topPlace? at h
  split at h
  · cases h
  · cases h
    omega

theorem frameAt_of_frame {place : Nat} {scope : Scope} (h : s.frames[place]? = some (some scope)) :
    s.frameAt place = .ok scope := by
  unfold frameAt
  rw [h]

theorem frameAt_cases (s : Stack) (place : Nat) :
    (∃ scope, s.frames[place]? = some (some scope) ∧ s.frameAt place = .ok scope) ∨
      ∃ d, s.frameAt place = .error d := by
  unfold frameAt
  split
  · exact .inl ⟨_, ‹_›, rfl⟩
  · exact .inr ⟨_, rfl⟩

theorem visibleFrom_succ {place : Nat} {scope : Scope} (h : s.frames[place]? = some (some scope))
    (fuel : Nat) : s.visibleFrom (fuel + 1) (some place) =
      s.visibleFrom fuel scope.parent ∪ scope.bindings := by
  rw [visibleFrom, h]

/-! ### Operations -/

theorem push_of_size_eq (h : s.frames.size = s.height) (scope : Scope) :
    push scope s = (.ok (), s.withTop scope) := by
  show (if s.frames.size = s.height then _ else _ : StackM Defect Unit) s = _
  rw [if_pos h]
  rfl

theorem pushNamed_of_size_eq (h : s.frames.size = s.height) (name : Bytes) :
    pushNamed name s = (.ok (), s.withNamed name) :=
  push_of_size_eq h _

theorem push_of_size_ne (h : s.frames.size ≠ s.height) (scope : Scope) :
    push scope s = (.error (.corruptStack s.top s.frames.size), s) := by
  show (if s.frames.size = s.height then _ else _ : StackM Defect Unit) s = _
  rw [if_neg h]
  rfl

theorem topPlace_of_topPlace? {ε : Type} {place : Nat} (h : s.topPlace? = some place) (e : ε) :
    StackM.topPlace e s = (.ok place, s) :=
  StackM.read_of_eq (by simp only [h])

theorem topPlace_of_none {ε : Type} (h : s.topPlace? = none) (e : ε) :
    StackM.topPlace e s = (.error e, s) :=
  StackM.read_of_eq (by simp only [h])

theorem write_of_lt {place : Nat} (h : place < s.frames.size) (frame : Option Scope) :
    StackM.write place frame s =
      (.ok (), { s with frames := s.frames.setIfInBounds place frame }) :=
  if_pos h

theorem resize_of_le {n : Nat} (h : n ≤ s.room) : StackM.resize n s = (.ok (), { s with
    frames := s.frames.extract 0 n ++ Array.replicate (n - s.frames.size) none }) :=
  if_pos h

theorem bindAt_of_frame {place : Nat} {scope : Scope}
    (h : s.frames[place]? = some (some scope)) (sym : Symbol) (v : Value) :
    bindAt place sym v s = (.ok (), { s with
      frames := s.frames.setIfInBounds place (some (scope.bind sym v)) }) := by
  unfold bindAt
  rw [StackM.bind_of_ok (StackM.read_of_eq (frameAt_of_frame h))]
  exact write_of_lt (Array.getElem?_eq_some_iff.1 h).1 _

theorem bindAt_of_error {place : Nat} {d : Defect} (h : s.frameAt place = .error d) (sym : Symbol)
    (v : Value) : bindAt place sym v s = (.error d, s) := by
  unfold bindAt
  exact StackM.bind_of_error (StackM.read_of_eq h)

theorem bind_of_topPlace? {place : Nat} (h : s.topPlace? = some place) (sym : Symbol) (v : Value) :
    bind sym v s = bindAt place sym v s := by
  unfold bind
  exact StackM.bind_of_ok (topPlace_of_topPlace? h _)

theorem bind_of_none (h : s.topPlace? = none) (sym : Symbol) (v : Value) :
    bind sym v s = (.error .underflow, s) := by
  unfold bind
  exact StackM.bind_of_error (topPlace_of_none h _)

/-- A symbol is bound in the top frame, or nothing happens. -/
theorem bind_cases (s : Stack) (sym : Symbol) (v : Value) :
    (∃ d, bind sym v s = (.error d, s)) ∨
      ∃ scope, s.frames[s.height - 1]? = some (some scope) ∧ bind sym v s = (.ok (), { s with
        frames := s.frames.setIfInBounds (s.height - 1) (some (scope.bind sym v)) }) := by
  by_cases hpos : 0 < s.height
  · rw [bind_of_topPlace? (topPlace?_of_pos hpos)]
    rcases frameAt_cases s (s.height - 1) with ⟨scope, hscope, -⟩ | ⟨d, hd⟩
    · exact .inr ⟨scope, hscope, bindAt_of_frame hscope sym v⟩
    · exact .inl ⟨d, bindAt_of_error hd sym v⟩
  · exact .inl ⟨_, bind_of_none (if_pos (by omega)) sym v⟩

theorem get_zero {scope : Scope} (hpos : 0 < s.height)
    (hscope : s.frames[s.height - 1]? = some (some scope)) : s.get 0 = .ok scope := by
  have hplace : s.place? 0 = some (s.height - 1) := by
    unfold place?
    rw [if_neg (by omega)]
    rfl
  unfold get
  rw [hplace]
  simp only [frameAt_of_frame hscope]
  rfl

theorem frame_of_get_zero {scope : Scope} (h : s.get 0 = .ok scope) :
    0 < s.height ∧ s.frames[s.height - 1]? = some (some scope) := by
  unfold get place? at h
  split at h
  · cases h
  · rename_i place hplace
    split at hplace
    · cases hplace
    · cases hplace
      rcases frameAt_cases s (s.height - 1) with ⟨scope', hscope, hframe⟩ | ⟨d, hframe⟩
      · rw [show s.height - 1 - Int.toNat 0 = s.height - 1 from rfl, hframe] at h
        cases h
        exact ⟨by omega, hscope⟩
      · rw [show s.height - 1 - Int.toNat 0 = s.height - 1 from rfl, hframe] at h
        cases h

/-- Cutting an arena off looks only at the places that are kept. -/
theorem extract_congr {fs gs : Array (Option Scope)} {n : Nat} (hsize : fs.size = gs.size)
    (hkept : ∀ place < n, fs[place]? = gs[place]?) : fs.extract 0 n = gs.extract 0 n := by
  refine Array.ext_getElem? fun p => ?_
  rw [Array.getElem?_extract, Array.getElem?_extract, hsize]
  split
  · exact hkept _ (by omega)
  · rfl

/-- The top frame goes with its place, which is emptied first. -/
theorem pop_of_lt (hpos : 0 < s.height) (hlt : s.height - 1 < s.frames.size) :
    pop s = (.ok (s.frames[s.height - 1]?).join, s.withoutTop) := by
  have hroom : s.height - 1 ≤ max (s.frames.setIfInBounds (s.height - 1) none).size s.capacity := by
    rw [Array.size_setIfInBounds]
    omega
  have hframes : (s.frames.setIfInBounds (s.height - 1) none).extract 0 (s.height - 1) ++
      Array.replicate (s.height - 1 - (s.frames.setIfInBounds (s.height - 1) none).size) none =
        s.frames.extract 0 (s.height - 1) := by
    rw [Array.size_setIfInBounds, Nat.sub_eq_zero_of_le (Nat.le_of_lt hlt), Array.replicate_zero,
      Array.append_empty]
    exact extract_congr Array.size_setIfInBounds fun p hp =>
      Array.getElem?_setIfInBounds_ne (Nat.ne_of_gt hp)
  have hcut : (do
      StackM.write (s.height - 1) none
      StackM.resize (s.height - 1)
      StackM.setHeight (s.height - 1)) s = (.ok (), s.withoutTop) := by
    rw [StackM.bind_of_ok (write_of_lt hlt none), StackM.bind_of_ok (resize_of_le hroom)]
    unfold StackM.setHeight withoutTop
    simp only [hframes]
  unfold pop
  rw [StackM.bind_of_ok (topPlace_of_topPlace? (topPlace?_of_pos hpos) _),
    StackM.bind_of_ok (show StackM.peek (s.height - 1) s = _ from rfl)]
  exact StackM.bind_of_ok (StackM.mapError_of_ok hcut)

theorem popScope_of_error {e : Failure} (h : s.get 0 = .error e) : popScope s = (.error e, s) := by
  unfold popScope
  exact StackM.bind_of_error (StackM.read_of_eq h)

theorem popScope_of_global {scope : Scope} (h : s.get 0 = .ok scope)
    (hglobal : scope.isGlobal = true) : popScope s = (.error .popGlobal, s) := by
  unfold popScope
  rw [StackM.bind_of_ok (StackM.read_of_eq h), hglobal]
  rfl

theorem popScope_of_local {scope : Scope} (h : s.get 0 = .ok scope)
    (hlocal : scope.isGlobal = false) : popScope s = (.ok (), s.withoutTop) := by
  obtain ⟨hpos, hscope⟩ := frame_of_get_zero h
  unfold popScope
  rw [StackM.bind_of_ok (StackM.read_of_eq h), hlocal]
  exact StackM.bind_of_ok (pop_of_lt hpos (Array.getElem?_eq_some_iff.1 hscope).1)

/-- Emptying places leaves those below them as they are. -/
theorem vacate_of_le : ∀ (n : Nat) {place : Nat} {s : Stack}, place + n ≤ s.frames.size →
    ∃ fs, StackM.vacate place n s = (.ok (), { s with frames := fs }) ∧
      fs.size = s.frames.size ∧ ∀ p < place, fs[p]? = s.frames[p]?
  | 0, _, s, _ => ⟨s.frames, rfl, rfl, fun _ _ => rfl⟩
  | n + 1, place, s, h => by
    obtain ⟨fs, hfs, hsize, hbelow⟩ := @vacate_of_le n (place + 1)
      { s with frames := s.frames.setIfInBounds place none } (by simp; omega)
    refine ⟨fs, ?_, hsize.trans Array.size_setIfInBounds, fun p hp => ?_⟩
    · rw [StackM.vacate, StackM.bind_of_ok (write_of_lt (by omega) none), hfs]
    · rw [hbelow p (by omega)]
      exact Array.getElem?_setIfInBounds_ne (by omega)

/-- Within the room, truncating cuts frames off or adds places without one. -/
theorem truncate_of_le {n : Nat} (h : n ≤ s.room) : truncate n s = (.ok (), { s with
    frames := s.frames.extract 0 n ++ Array.replicate (n - s.frames.size) none
    height := n }) := by
  obtain ⟨fs, hvacate, hsize, hbelow⟩ : ∃ fs,
      StackM.vacate n (s.frames.size - n) s = (.ok (), { s with frames := fs }) ∧
        fs.size = s.frames.size ∧ ∀ p < n, fs[p]? = s.frames[p]? := by
    by_cases hn : n ≤ s.frames.size
    · exact vacate_of_le (s.frames.size - n) (by omega)
    · rw [Nat.sub_eq_zero_of_le (by omega)]
      exact ⟨s.frames, rfl, rfl, fun _ _ => rfl⟩
  have hroom : n ≤ max fs.size s.capacity := by
    rw [hsize]
    exact h
  have hkept : fs.extract 0 n = s.frames.extract 0 n := extract_congr hsize hbelow
  unfold truncate
  rw [if_neg (by omega), Int.toNat_natCast,
    StackM.bind_of_ok (show StackM.places s = (.ok s.frames.size, s) from rfl),
    StackM.bind_of_ok hvacate, StackM.bind_of_ok (resize_of_le hroom)]
  unfold StackM.setHeight
  simp only [hkept, hsize]

/-- Beyond the room, nothing is truncated. -/
theorem truncate_of_room_lt {n : Nat} (h : s.room < n) :
    truncate n s = (.error .outOfBounds, s) := by
  have hsize : s.frames.size - n = 0 := by
    unfold room at h
    omega
  unfold truncate
  rw [if_neg (by omega), Int.toNat_natCast,
    StackM.bind_of_ok (show StackM.places s = (.ok s.frames.size, s) from rfl), hsize,
    StackM.bind_of_ok (show StackM.vacate n 0 s = (.ok (), s) from rfl)]
  exact StackM.bind_of_error (if_neg (by omega))

theorem truncate_of_neg {n : Int} (h : n < 0) : truncate n s = (.error .outOfBounds, s) := by
  unfold truncate
  rw [if_pos h]
  rfl

/-! ### Looking up -/

theorem lookupFrom_of_wellFormed (hs : s.WellFormed) (sym : Symbol) :
    ∀ (fuel : Nat) (place : Option Nat), (∀ p, place = some p → p < s.height) →
      ∃ r, s.lookupFrom sym fuel place = .ok r ∧
        r.map (·.1) = (s.visibleFrom fuel place)[sym]?
  | 0, none, _ | 0, some _, _ | _ + 1, none, _ => ⟨none, rfl, by simp [visibleFrom]⟩
  | fuel + 1, some p, hp => by
    obtain ⟨scope, hscope, houter⟩ := hs.frame p (hp p rfl)
    rw [lookupFrom, frameAt_of_frame hscope, visibleFrom_succ hscope]
    cases hsym : scope.bindings[sym]? with
    | some v => exact ⟨some (v, scope), by simp only [hsym], by
        simp [Std.ExtTreeMap.getElem?_union, hsym]⟩
    | none =>
      have hbelow : ∀ q, scope.parent = some q → q < s.height := fun q hq =>
        Nat.lt_trans (houter q hq) (hp p rfl)
      obtain ⟨r, hr, hvisible⟩ := lookupFrom_of_wellFormed hs sym fuel scope.parent hbelow
      exact ⟨r, by simp only [hsym, hr], by
        simp [Std.ExtTreeMap.getElem?_union, hsym, hvisible]⟩

/-- Looking up a symbol reads the visible bindings. -/
theorem lookup_of_wellFormed (hs : s.WellFormed) (sym : Symbol) :
    ∃ r, s.lookup sym = .ok r ∧ r.map (·.1) = s.visible[sym]? :=
  lookupFrom_of_wellFormed hs sym s.height s.topPlace? fun _ => lt_height_of_topPlace?

/-- The bindings seen from a place depend on the frames up to that place only. -/
theorem visibleFrom_congr (hs : s.WellFormed) {size : Nat} (hsize : size ≤ s.height)
    (hsame : ∀ p < size, s'.frames[p]? = s.frames[p]?) :
    ∀ (fuel : Nat) (place : Option Nat), (∀ p, place = some p → p < size) →
      s'.visibleFrom fuel place = s.visibleFrom fuel place
  | 0, none, _ | 0, some _, _ | _ + 1, none, _ => rfl
  | fuel + 1, some p, hp => by
    have hlt := hp p rfl
    obtain ⟨scope, hscope, houter⟩ := hs.frame p (Nat.lt_of_lt_of_le hlt hsize)
    rw [visibleFrom_succ hscope, visibleFrom_succ ((hsame p hlt).trans hscope),
      visibleFrom_congr hs hsize hsame fuel scope.parent
        fun q hq => Nat.lt_trans (houter q hq) hlt]

theorem visible_congr (hs : s.WellFormed) (hheight : s'.height = s.height)
    (hframes : s'.frames = s.frames) : s'.visible = s.visible := by
  have htop : s'.topPlace? = s.topPlace? := by
    unfold topPlace?
    rw [hheight]
  unfold visible
  rw [hheight, htop]
  exact visibleFrom_congr hs (Nat.le_refl _) (fun p _ => by rw [hframes]) _ _
    fun _ => lt_height_of_topPlace?

/-! ### Changes of the top frame -/

/-- The second stack differs from the first at most in the bindings of its top frame. -/
structure TopChange (s s' : Stack) : Prop where
  /-- As many frames are in use. -/
  height_eq : s'.height = s.height
  /-- There are as many places. -/
  size_eq : s'.frames.size = s.frames.size
  /-- At least as many places are reserved. -/
  capacity_le : s.capacity ≤ s'.capacity
  /-- The frames below the top are the same. -/
  below : ∀ place, place + 1 < s.height → s'.frames[place]? = s.frames[place]?
  /-- The top frame is the same but for its bindings. -/
  top : ∀ scope, s.frames[s.height - 1]? = some (some scope) →
    ∃ bindings, s'.frames[s.height - 1]? = some (some { scope with bindings := bindings })

theorem TopChange.refl (s : Stack) : s.TopChange s :=
  ⟨rfl, rfl, Nat.le_refl _, fun _ _ => rfl, fun scope h => ⟨scope.bindings, h⟩⟩

theorem TopChange.trans (h₁ : s.TopChange s') (h₂ : s'.TopChange s'') : s.TopChange s'' where
  height_eq := h₂.height_eq.trans h₁.height_eq
  size_eq := h₂.size_eq.trans h₁.size_eq
  capacity_le := Nat.le_trans h₁.capacity_le h₂.capacity_le
  below place h := (h₂.below place (by rw [h₁.height_eq]; exact h)).trans (h₁.below place h)
  top scope h := by
    obtain ⟨b₁, hb₁⟩ := h₁.top scope h
    have := h₂.top _ (by rw [h₁.height_eq]; exact hb₁)
    rwa [h₁.height_eq] at this

theorem TopChange.wellFormed (h : s.TopChange s') (hs : s.WellFormed) : s'.WellFormed where
  size_eq := by rw [h.size_eq, h.height_eq, hs.size_eq]
  frame place hplace := by
    rw [h.height_eq] at hplace
    obtain ⟨scope, hscope, houter⟩ := hs.frame place hplace
    by_cases hbelow : place + 1 < s.height
    · exact ⟨scope, by rw [h.below place hbelow, hscope], houter⟩
    · obtain rfl : place = s.height - 1 := by omega
      obtain ⟨b, hb⟩ := h.top scope hscope
      exact ⟨_, hb, houter⟩

theorem visible_eq_union {scope : Scope} (hpos : 0 < s.height)
    (hscope : s.frames[s.height - 1]? = some (some scope)) :
    s.visible = s.visibleFrom (s.height - 1) scope.parent ∪ scope.bindings := by
  have hsucc : s.height = s.height - 1 + 1 := by omega
  rw [← visibleFrom_succ hscope, ← hsucc, ← topPlace?_of_pos hpos]
  rfl

/-- After a change of the top frame, its new bindings are seen in front of what was seen from the
enclosing frame. -/
theorem TopChange.visible_eq (h : s.TopChange s') (hs : s.WellFormed) (hpos : 0 < s.height)
    {scope : Scope} {bindings : Bindings} (hscope : s.frames[s.height - 1]? = some (some scope))
    (hscope' : s'.frames[s.height - 1]? = some (some { scope with bindings := bindings })) :
    s'.visible = s.visibleFrom (s.height - 1) scope.parent ∪ bindings := by
  obtain ⟨_, hframe, houter⟩ := hs.frame (s.height - 1) (by omega)
  rw [hscope] at hframe
  cases hframe
  have hunion := visible_eq_union (by rw [h.height_eq]; exact hpos)
    (by rw [h.height_eq]; exact hscope')
  rw [h.height_eq] at hunion
  rw [hunion]
  exact congrArg (· ∪ bindings) (visibleFrom_congr hs (Nat.sub_le _ 1)
    (fun p hp => h.below p (by omega)) _ _ houter)

/-! ### Binding -/

theorem bind_of_wellFormed (hs : s.WellFormed) (hpos : 0 < s.height) (sym : Symbol) (v : Value) :
    ∃ scope, s.frames[s.height - 1]? = some (some scope) ∧ bind sym v s = (.ok (), { s with
      frames := s.frames.setIfInBounds (s.height - 1) (some (scope.bind sym v)) }) := by
  obtain ⟨scope, hscope, -⟩ := hs.frame (s.height - 1) (by omega)
  refine ⟨scope, hscope, ?_⟩
  rw [bind_of_topPlace? (topPlace?_of_pos hpos), bindAt_of_frame hscope]

/-- Another frame with the same name and place on top. -/
theorem topChange_set {scope : Scope} (hscope : s.frames[s.height - 1]? = some (some scope))
    (bindings : Bindings) : s.TopChange { s with
      frames := s.frames.setIfInBounds (s.height - 1)
        (some { scope with bindings := bindings }) } where
  height_eq := rfl
  size_eq := Array.size_setIfInBounds
  capacity_le := Nat.le_refl _
  below p hp := Array.getElem?_setIfInBounds_ne (by omega)
  top scope' hscope' := by
    rw [hscope] at hscope'
    cases hscope'
    exact ⟨bindings,
      Array.getElem?_setIfInBounds_self_of_lt (Array.getElem?_eq_some_iff.1 hscope).1⟩

theorem topChange_bind (s : Stack) (sym : Symbol) (v : Value) :
    s.TopChange (bind sym v s).2 := by
  rcases bind_cases s sym v with ⟨d, hbind⟩ | ⟨scope, hscope, hbind⟩
  · rw [hbind]
    exact .refl s
  · rw [hbind]
    exact topChange_set hscope _

theorem insert_union (t₁ t₂ : Bindings) (sym : Symbol) (v : Value) :
    t₁ ∪ t₂.insert sym v = (t₁ ∪ t₂).insert sym v := by
  refine Std.ExtTreeMap.ext_getElem? fun k => ?_
  rw [Std.ExtTreeMap.getElem?_union, Std.ExtTreeMap.getElem?_insert,
    Std.ExtTreeMap.getElem?_insert, Std.ExtTreeMap.getElem?_union]
  split <;> simp

/-- Binding a symbol changes the top frame and extends the visible bindings. -/
theorem visible_bind (hs : s.WellFormed) (hpos : 0 < s.height) (sym : Symbol) (v : Value) :
    ∃ s', bind sym v s = (.ok (), s') ∧ s.TopChange s' ∧
      s'.visible = s.visible.insert sym v := by
  obtain ⟨scope, hscope, hbind⟩ := bind_of_wellFormed hs hpos sym v
  have hchange := topChange_set hscope (scope.bindings.insert sym v)
  have htop : (s.frames.setIfInBounds (s.height - 1) (some (scope.bind sym v)))[s.height - 1]? =
      some (some (scope.bind sym v)) :=
    Array.getElem?_setIfInBounds_self_of_lt (Array.getElem?_eq_some_iff.1 hscope).1
  refine ⟨_, hbind, hchange, (hchange.visible_eq hs hpos hscope htop).trans ?_⟩
  rw [visible_eq_union hpos hscope]
  exact insert_union _ _ _ _

/-! ### Pushing and popping -/

theorem frames_withNamed_of_lt (hsize : s.frames.size = s.height) (name : Bytes) {place : Nat}
    (h : place < s.height) : (s.withNamed name).frames[place]? = s.frames[place]? := by
  unfold withNamed withTop
  simp only
  rw [Array.getElem?_push_lt (by rw [hsize]; exact h), Array.getElem?_eq_getElem]

theorem frames_withNamed_top (hsize : s.frames.size = s.height) (name : Bytes) :
    (s.withNamed name).frames[s.height]? =
      some (some { Scope.named name with parent := s.topPlace? }) := by
  unfold withNamed withTop
  simp only
  rw [← hsize, Array.getElem?_push_size]

theorem size_withNamed (hsize : s.frames.size = s.height) (name : Bytes) :
    (s.withNamed name).frames.size = s.height + 1 := by
  unfold withNamed withTop
  simp [hsize]

theorem wellFormed_withNamed (hs : s.WellFormed) (name : Bytes) :
    (s.withNamed name).WellFormed where
  size_eq := size_withNamed hs.size_eq name
  frame place hplace := by
    by_cases h : place < s.height
    · rw [frames_withNamed_of_lt hs.size_eq name h]
      exact hs.frame place h
    · obtain rfl : place = s.height := by
        have : (s.withNamed name).height = s.height + 1 := rfl
        omega
      exact ⟨_, frames_withNamed_top hs.size_eq name, fun _ => lt_height_of_topPlace?⟩

/-- A new frame hides nothing. -/
theorem visible_withNamed (hs : s.WellFormed) (name : Bytes) :
    (s.withNamed name).visible = s.visible := by
  have htop : (s.withNamed name).topPlace? = some s.height := rfl
  have hheight : (s.withNamed name).height = s.height + 1 := rfl
  unfold visible
  rw [htop, hheight, visibleFrom_succ (frames_withNamed_top hs.size_eq name)]
  rw [visibleFrom_congr hs (Nat.le_refl _) (fun p hp => frames_withNamed_of_lt hs.size_eq name hp)
    s.height s.topPlace? fun _ => lt_height_of_topPlace?]
  refine Std.ExtTreeMap.ext_getElem? fun k => ?_
  simp [Std.ExtTreeMap.getElem?_union, Scope.named]

theorem capacity_le_withNamed (s : Stack) (name : Bytes) :
    s.capacity ≤ (s.withNamed name).capacity := by
  show s.capacity ≤ s.nextCapacity
  unfold nextCapacity
  split
  · exact Nat.le_refl _
  · omega

/-- Once a pushed frame is popped, the frames are those from before, whatever became of the bindings
of the pushed one. -/
theorem popScope_withNamed (hsize : s.frames.size = s.height) {name : Bytes}
    (h : (s.withNamed name).TopChange s') :
    popScope s' = (.ok (), s'.withoutTop) ∧ s'.withoutTop.frames = s.frames ∧
      s.TopChange s'.withoutTop := by
  have hheight : s'.height = s.height + 1 := h.height_eq
  have hsize' : s'.frames.size = s.height + 1 := h.size_eq.trans (size_withNamed hsize name)
  obtain ⟨b, hb⟩ := h.top _ (frames_withNamed_top hsize name)
  -- The frame that is taken off is the one that may have changed.
  have hframes : s'.withoutTop.frames = s.frames := by
    refine Array.ext_getElem? fun p => ?_
    show (s'.frames.extract 0 (s'.height - 1))[p]? = _
    rw [Array.getElem?_extract, hheight, hsize']
    split
    · rw [Nat.zero_add, h.below p (by show p + 1 < s.height + 1; omega),
        frames_withNamed_of_lt hsize name (by omega)]
    · rw [Array.getElem?_eq_none (by omega)]
  have htop : s'.get 0 = .ok { Scope.named name with parent := s.topPlace?, bindings := b } :=
    get_zero (by omega) (by rw [h.height_eq]; exact hb)
  refine ⟨popScope_of_local htop rfl, hframes, ?_⟩
  refine ⟨?_, congrArg Array.size hframes, ?_, fun p _ => congrArg (·[p]?) hframes, ?_⟩
  · show s'.height - 1 = s.height
    omega
  · exact Nat.le_trans (capacity_le_withNamed s name) h.capacity_le
  · intro scope hscope
    exact ⟨scope.bindings, (congrArg (·[s.height - 1]?) hframes).trans hscope⟩

/-! ### Properties of all bindings -/

/-- Every binding of every frame has the property. -/
def Holds (P : Symbol → Value → Prop) (s : Stack) : Prop :=
  ∀ (place : Nat) (scope : Scope), s.frames[place]? = some (some scope) →
    ∀ (sym : Symbol) (v : Value), scope.bindings[sym]? = some v → P sym v

variable {P : Symbol → Value → Prop}

theorem Holds.mono (h : s.Holds P) {Q : Symbol → Value → Prop} (hPQ : ∀ sym v, P sym v → Q sym v) :
    s.Holds Q :=
  fun place scope hscope sym v hv => hPQ sym v (h place scope hscope sym v hv)

theorem holds_of_frames {outer inner : Scope} (hframes : s.frames = #[some outer, some inner])
    (houter : ∀ sym v, outer.bindings[sym]? = some v → P sym v)
    (hinner : ∀ sym v, inner.bindings[sym]? = some v → P sym v) : s.Holds P := by
  intro place scope hscope
  rw [hframes] at hscope
  match place with
  | 0 =>
    cases hscope
    exact houter
  | 1 =>
    cases hscope
    exact hinner
  | _ + 2 => cases hscope

theorem Holds.of_frames_eq (h : s.Holds P) (hframes : s'.frames = s.frames) : s'.Holds P := by
  unfold Holds at h ⊢
  rw [hframes]
  exact h

theorem Holds.lookupFrom (h : s.Holds P) {sym : Symbol} {v : Value} {scope : Scope} :
    ∀ {fuel : Nat} {place : Option Nat}, s.lookupFrom sym fuel place = .ok (some (v, scope)) →
      P sym v
  | 0, none, hl | 0, some _, hl | _ + 1, none, hl => by
    simp [Stack.lookupFrom] at hl
  | fuel + 1, some p, hl => by
    rw [Stack.lookupFrom] at hl
    unfold frameAt at hl
    split at hl
    · cases hl
    · rename_i scope' hframe
      split at hframe
      · rename_i hscope
        cases hframe
        split at hl
        · rename_i hv
          cases hl
          exact h p _ hscope sym v hv
        · exact h.lookupFrom hl
      · cases hframe

/-- A frame with the property in the place of another. -/
theorem Holds.setIfInBounds (h : s.Holds P) (place : Nat) {scope : Scope}
    (hscope : ∀ sym v, scope.bindings[sym]? = some v → P sym v) :
    { s with frames := s.frames.setIfInBounds place (some scope) }.Holds P := by
  intro p scope' hp sym v hv
  by_cases hplace : place = p
  · subst hplace
    simp only [Array.getElem?_setIfInBounds_self] at hp
    split at hp
    · cases hp
      exact hscope sym v hv
    · cases hp
  · simp only [Array.getElem?_setIfInBounds_ne hplace] at hp
    exact h p scope' hp sym v hv

theorem holds_bind {scope : Scope} (hscope : ∀ sym v, scope.bindings[sym]? = some v → P sym v)
    {sym : Symbol} {v : Value} (hv : P sym v) :
    ∀ sym' v', (scope.bind sym v).bindings[sym']? = some v' → P sym' v' := by
  intro sym' v' h
  simp only [Scope.bind, Std.ExtTreeMap.getElem?_insert] at h
  split at h
  · rename_i heq
    cases h
    rw [Std.LawfulEqCmp.eq_of_compare heq] at hv
    exact hv
  · exact hscope sym' v' h

theorem Holds.bind (h : s.Holds P) {sym : Symbol} {v : Value} (hv : P sym v) :
    (Stack.bind sym v s).2.Holds P := by
  rcases bind_cases s sym v with ⟨d, hbind⟩ | ⟨scope, hscope, hbind⟩
  · rw [hbind]
    exact h
  · rw [hbind]
    exact h.setIfInBounds _ (holds_bind (h _ scope hscope) hv)

theorem Holds.withNamed (h : s.Holds P) (hsize : s.frames.size = s.height) (name : Bytes) :
    (s.withNamed name).Holds P := by
  intro p scope hp sym v hv
  by_cases hlt : p < s.height
  · rw [frames_withNamed_of_lt hsize name hlt] at hp
    exact h p scope hp sym v hv
  · obtain rfl : p = s.height := by
      have := (Array.getElem?_eq_some_iff.1 hp).1
      have := size_withNamed hsize name
      omega
    rw [frames_withNamed_top hsize name] at hp
    cases hp
    simp [Scope.named] at hv

end Stack

/-! ### Evaluation in a frame of its own -/

namespace EvalM

variable {α : Type} {m : Machine}

theorem onStack_eq {x : StackM Defect α} {r : Except Defect α} {s : Stack}
    (h : x m.stack = (r, s)) : onStack x m = (r.mapError .defect, { m with stack := s }) := by
  unfold onStack
  rw [h]

/-- A computation that changes at most the top frame, run in a frame of its own. -/
theorem inFrame_of_change (hsize : m.stack.frames.size = m.stack.height) {name : Bytes}
    {x : EvalM α} (hchange : (m.stack.withNamed name).TopChange
      (x { m with stack := m.stack.withNamed name }).2.stack) :
    let r := x { m with stack := m.stack.withNamed name }
    inFrame name x m = (r.1, { r.2 with stack := r.2.stack.withoutTop }) := by
  intro r
  obtain ⟨hpop, -, -⟩ := Stack.popScope_withNamed hsize hchange
  have hleave : onStack (StackM.mapError Stack.Failure.toDefect Stack.popScope) r.2 =
      (.ok (), { r.2 with stack := r.2.stack.withoutTop }) :=
    onStack_eq (StackM.mapError_of_ok hpop)
  unfold inFrame
  rw [bind_of_ok (onStack_eq (Stack.pushNamed_of_size_eq hsize name))]
  exact thenAlways_of_ok hleave

/-- On a stack whose arena does not end with its top, no frame can be pushed. -/
theorem inFrame_of_size_ne (hsize : m.stack.frames.size ≠ m.stack.height) (name : Bytes)
    (x : EvalM α) : inFrame name x m =
      (.error (.defect (.corruptStack m.stack.top m.stack.frames.size)), m) := by
  unfold inFrame
  exact bind_of_error (onStack_eq (Stack.push_of_size_ne hsize _))

end EvalM

end SpanLisp
