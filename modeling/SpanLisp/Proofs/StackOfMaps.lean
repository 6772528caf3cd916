import Mathlib.Data.Nat.PSub
import SpanLisp.Proofs.Frames

/-!
# The arena is a stack of maps

`Frames` is a list of frames, each a name, a mark for the global frame and a map, with the top at
the head.  `Frames.perform` says what every operation of a stack means on such a list, with no
places, parents or counts.  An arena represents a list (`Stack.Represents`) if every tail
`f :: below` of the list has its head at the place `below.length`, enclosed by the place before.

Each operation keeps arena and list in step (`Represents.perform`), so any run of operations on an
arena gives the answers of the list (`Represents.askAll`).  An operation that fails has written
nothing by then (`StackM.Atomic`), on any arena.  The loops that follow the enclosing
frames are described by `Stack.Walk`, a walk that has an end: from the top it passes every place
once, downwards (`Represents.walk`, `Frames.map_fst_placed`).
-/

namespace SpanLisp

/-- A frame by itself: its name, whether it is global, and its map. -/
structure Frame where
  name : Bytes := []
  isGlobal : Bool := false
  bindings : Bindings := ∅

namespace Frame

/-- What a scope is apart from its place. -/
def ofScope (scope : Scope) : Frame := ⟨scope.name, scope.isGlobal, scope.bindings⟩

/-- The frame on top of `below` frames, enclosed by the highest of them. -/
def above (f : Frame) (below : Nat) : Scope :=
  { bindings := f.bindings, name := f.name, isGlobal := f.isGlobal, parent := below.ppred }

/-- The frame with one more binding, or a changed one. -/
def bind (f : Frame) (sym : Symbol) (v : Value) : Frame :=
  { f with bindings := f.bindings.insert sym v }

end Frame

/-- Frames from the top down. -/
abbrev Frames := List Frame

namespace Stack

/-! ### Operations -/

/-- What can be asked of a stack. -/
inductive Operation where
  | push (scope : Scope)
  | pushScope
  | pushNamed (name : Bytes)
  | pop
  | popScope
  | bind (sym : Symbol) (v : Value)
  | truncate (n : Int)
  | lookup (sym : Symbol)
  | get (n : Int)
  | getTop
  | root

/-- What an operation gives back if it succeeds. -/
inductive Answer where
  | done
  | frame (scope : Option Scope)
  | binding (found : Option (Value × Scope))

/-- An operation on an arena. -/
def perform : Operation → StackM Failure Answer
  | .push scope => do
    (push scope).mapError .defect
    return .done
  | .pushScope => do
    (pushNamed []).mapError .defect
    return .done
  | .pushNamed name => do
    (pushNamed name).mapError .defect
    return .done
  | .pop => do return .frame (← pop)
  | .popScope => do
    popScope
    return .done
  | .bind sym v => do
    (bind sym v).mapError .defect
    return .done
  | .truncate n => do
    (truncate n).mapError .defect
    return .done
  | .lookup sym => do return .binding (← (StackM.read (lookup · sym)).mapError .defect)
  | .get n => do return .frame (some (← StackM.read (get · n)))
  | .getTop => do return .frame (some (← (StackM.read getTop).mapError .defect))
  | .root => do return .frame (some (← (StackM.read root).mapError .defect))

/-- The answers to several operations, one after the other, and the state after them. -/
def askAll {σ : Type} (perform : Operation → σ → Except Failure Answer × σ) (state : σ) :
    List Operation → List (Except Failure Answer) × σ
  | [] => ([], state)
  | op :: ops =>
    let r := perform op state
    let rs := askAll perform r.2 ops
    (r.1 :: rs.1, rs.2)

/-- A stack is only ever cut down to a number of frames that it has. -/
def Admits (s : Stack) : Operation → Prop
  | .truncate n => 0 ≤ n ∧ n ≤ s.height
  | _ => True

/-- Every operation of a run is admitted when its turn comes. -/
def AdmitsAll (s : Stack) : List Operation → Prop
  | [] => True
  | op :: ops => s.Admits op ∧ AdmitsAll (perform op s).2 ops

end Stack

namespace Frames

open Stack (Operation Answer Failure)

/-- The binding of a symbol in the first frame that has one, and that frame. -/
def lookup (sym : Symbol) : Frames → Option (Value × Scope)
  | [] => none
  | f :: below =>
    match f.bindings[sym]? with
    | some v => some (v, f.above below.length)
    | none => lookup sym below

/-- An operation on a list of frames. -/
def perform (op : Operation) (fs : Frames) : Except Failure Answer × Frames :=
  match op with
  | .push scope => (.ok .done, .ofScope scope :: fs)
  | .pushScope => (.ok .done, {} :: fs)
  | .pushNamed name => (.ok .done, { name := name } :: fs)
  | .pop =>
    match fs with
    | [] => (.error .underflow, [])
    | f :: below => (.ok (.frame (f.above below.length)), below)
  | .popScope =>
    match fs with
    | [] => (.error .underflow, [])
    | f :: below => if f.isGlobal then (.error .popGlobal, fs) else (.ok .done, below)
  | .bind sym v =>
    match fs with
    | [] => (.error (.defect .underflow), [])
    | f :: below => (.ok .done, f.bind sym v :: below)
  | .truncate n => (.ok .done, fs.drop (fs.length - n.toNat))
  | .lookup sym => (.ok (.binding (lookup sym fs)), fs)
  | .get n =>
    if n < 0 then (.error .underflow, fs)
    else
      match fs.drop n.toNat with
      | [] => (.error .underflow, fs)
      | f :: below => (.ok (.frame (f.above below.length)), fs)
  | .getTop =>
    match fs with
    | [] => (.error (.defect .underflow), [])
    | f :: below => (.ok (.frame (f.above below.length)), fs)
  | .root =>
    match fs.getLast? with
    | none => (.error (.defect .underflow), fs)
    | some f => (.ok (.frame (f.above 0)), fs)

/-- The frames with their places. -/
def placed : Frames → List (Nat × Scope)
  | [] => []
  | f :: below => (below.length, f.above below.length) :: placed below

theorem length_placed : ∀ fs : Frames, (placed fs).length = fs.length
  | [] => rfl
  | _ :: below => congrArg (· + 1) (length_placed below)

/-- Every place occurs once, the highest first. -/
theorem map_fst_placed : ∀ fs : Frames, (placed fs).map (·.1) = (List.range fs.length).reverse
  | [] => rfl
  | f :: below => by
    rw [placed, List.map_cons, map_fst_placed below, List.length_cons, List.range_succ,
      List.reverse_append]
    rfl

/-- The binding of a symbol among frames passed one after the other. -/
def firstBinding (sym : Symbol) (visited : List (Nat × Scope)) : Option (Value × Scope) :=
  visited.findSome? fun p => p.2.bindings[sym]?.map (·, p.2)

theorem firstBinding_placed (sym : Symbol) :
    ∀ fs : Frames, firstBinding sym (placed fs) = lookup sym fs
  | [] => rfl
  | f :: below => by
    have hf : (f.above below.length).bindings = f.bindings := rfl
    rw [placed, firstBinding, List.findSome?_cons, lookup, hf]
    cases f.bindings[sym]? with
    | some v => rfl
    | none => exact firstBinding_placed sym below

end Frames

/-- Where the operation fails, it has changed nothing. -/
def StackM.Atomic {ε α : Type} (x : StackM ε α) : Prop :=
  ∀ s, (∃ e, x s = (.error e, s)) ∨ ∃ a s', x s = (.ok a, s')

namespace StackM

variable {ε ε' α β : Type}

theorem atomic_read (f : Stack → Except ε α) : Atomic (read f) := by
  intro s
  cases h : f s with
  | error e => exact .inl ⟨e, read_of_eq h⟩
  | ok a => exact .inr ⟨a, s, read_of_eq h⟩

theorem Atomic.mapError {x : StackM ε α} (h : Atomic x) (f : ε → ε') : Atomic (x.mapError f) := by
  intro s
  rcases h s with ⟨e, hx⟩ | ⟨a, s', hx⟩
  · exact .inl ⟨f e, mapError_of_error hx⟩
  · exact .inr ⟨a, s', mapError_of_ok hx⟩

theorem Atomic.return {x : StackM ε α} (h : Atomic x) (f : α → β) :
    Atomic (do return f (← x)) := by
  intro s
  rcases h s with ⟨e, hx⟩ | ⟨a, s', hx⟩
  · exact .inl ⟨e, bind_of_error hx⟩
  · exact .inr ⟨f a, s', bind_of_ok hx⟩

end StackM

namespace Stack

variable {s : Stack} {fs : Frames}

/-! ### Following the enclosing frames -/

/-- Going from a place to the enclosing place, and so on, passes these frames and then ends. -/
inductive Walk (s : Stack) : Option Nat → List (Nat × Scope) → Prop
  | ended : Walk s none []
  | visit {place : Nat} {scope : Scope} {rest : List (Nat × Scope)}
      (hframe : s.frames[place]? = some (some scope)) (hrest : Walk s scope.parent rest) :
      Walk s (some place) ((place, scope) :: rest)

/-- Looking a symbol up is a walk that stops at the first frame with a binding; a bound on its steps
does not matter once it is as large as the walk is long. -/
theorem Walk.lookupFrom {start : Option Nat} {visited : List (Nat × Scope)}
    (h : s.Walk start visited) (sym : Symbol) :
    ∀ fuel, visited.length ≤ fuel →
      s.lookupFrom sym fuel start = .ok (Frames.firstBinding sym visited) := by
  induction h with
  | ended =>
    intro fuel _
    cases fuel <;> rfl
  | @visit place scope rest hframe _ ih =>
    intro fuel hfuel
    obtain ⟨fuel, rfl⟩ : ∃ n, fuel = n + 1 := Nat.exists_eq_add_one.2 (Nat.zero_lt_of_lt hfuel)
    rw [Stack.lookupFrom, frameAt_of_frame hframe, Frames.firstBinding, List.findSome?_cons]
    cases hsym : scope.bindings[sym]? with
    | some v => simp only [hsym, Option.map_some]
    | none =>
      simp only [hsym, Option.map_none]
      exact ih fuel (Nat.le_of_succ_le_succ hfuel)

/-- What a listing says of a frame. -/
def entry (names : Interner) (showGlobal : Bool) (p : Nat × Scope) : Except Defect Bytes :=
  if p.2.isGlobal && !showGlobal then .ok (hiddenLine p.1 p.2) else p.2.listing names 2

/-- A listing is a walk to its end, with an entry for every frame passed. -/
theorem Walk.listingFrom {start : Option Nat} {visited : List (Nat × Scope)}
    (h : s.Walk start visited) (names : Interner) (showGlobal : Bool) :
    ∀ fuel, visited.length ≤ fuel →
      s.listingFrom names showGlobal fuel start =
        (Scope.collect (entry names showGlobal) visited).map List.flatten := by
  induction h with
  | ended =>
    intro fuel _
    cases fuel <;> rfl
  | @visit place scope rest hframe _ ih =>
    intro fuel hfuel
    obtain ⟨fuel, rfl⟩ : ∃ n, fuel = n + 1 := Nat.exists_eq_add_one.2 (Nat.zero_lt_of_lt hfuel)
    have hentry : (if scope.isGlobal && !showGlobal then .ok (hiddenLine place scope)
        else scope.listing names 2) = entry names showGlobal (place, scope) := rfl
    rw [Stack.listingFrom, frameAt_of_frame hframe, Scope.collect]
    simp only [hentry, ih fuel (Nat.le_of_succ_le_succ hfuel)]
    cases entry names showGlobal (place, scope) with
    | error d => rfl
    | ok text => cases Scope.collect (entry names showGlobal) rest <;> rfl

/-! ### Arenas that hold a list of frames -/

/-- The arena holds the frames of the list: the head of every tail stands above the rest of it. -/
structure Represents (s : Stack) (fs : Frames) : Prop where
  /-- As many frames are in use. -/
  height_eq : s.height = fs.length
  /-- There are as many places. -/
  size_eq : s.frames.size = fs.length
  /-- The head of a tail stands at the place that counts the frames below it. -/
  frame : ∀ (f : Frame) (below : Frames), f :: below <:+ fs →
    s.frames[below.length]? = some (some (f.above below.length))

theorem topPlace?_eq_ppred (s : Stack) : s.topPlace? = s.height.ppred := by
  unfold topPlace?
  cases s.height <;> rfl

theorem get_of_not_lt {n : Int} (h : ¬ (0 ≤ n ∧ n < s.height)) : s.get n = .error .underflow := by
  have hplace : s.place? n = none := by rw [place?, if_pos (by omega)]
  rw [get, hplace]

theorem represents_ofName (name : Bytes) : (ofName name).Represents [] where
  height_eq := rfl
  size_eq := rfl
  frame f below h := absurd (List.eq_nil_of_suffix_nil h) (List.cons_ne_nil f below)

namespace Represents

theorem topPlace? (h : s.Represents fs) : s.topPlace? = fs.length.ppred := by
  rw [topPlace?_eq_ppred, h.height_eq]

theorem frameAt (h : s.Represents fs) {f : Frame} {below : Frames} (hsuffix : f :: below <:+ fs) :
    s.frameAt below.length = .ok (f.above below.length) :=
  frameAt_of_frame (h.frame f below hsuffix)

/-- An arena that keeps the lower frames holds the rest of the list. -/
theorem of_suffix (h : s.Represents fs) {rest : Frames} (hrest : rest <:+ fs)
    {height : Nat} (hheight : height = rest.length) {frames : Array (Option Scope)}
    (hsize : frames.size = height) (hframes : ∀ place < height, frames[place]? = s.frames[place]?) :
    { s with frames := frames, height := height }.Represents rest where
  height_eq := hheight
  size_eq := hsize.trans hheight
  frame f below hsuffix := by
    have hlt : below.length < rest.length := hsuffix.length_le
    exact (hframes _ (hheight ▸ hlt)).trans (h.frame f below (hsuffix.trans hrest))

theorem withTop (h : s.Represents fs) (scope : Scope) :
    (s.withTop scope).Represents (.ofScope scope :: fs) where
  height_eq := congrArg (· + 1) h.height_eq
  size_eq := by
    unfold Stack.withTop
    rw [Array.size_push, h.size_eq, List.length_cons]
  frame f below hsuffix := by
    unfold Stack.withTop
    rcases List.suffix_cons_iff.1 hsuffix with heq | htail
    · cases heq
      simp only [← h.size_eq, Array.getElem?_push_size, h.topPlace?]
      rfl
    · have hlt : below.length < s.frames.size := by
        rw [h.size_eq]
        exact htail.length_le
      simp only [Array.getElem?_push_lt hlt, ← h.frame f below htail,
        Array.getElem?_eq_getElem hlt]

/-- Without its top frame the arena holds the rest. -/
theorem withoutTop {f : Frame} {below : Frames} (h : s.Represents (f :: below)) :
    s.withoutTop.Represents below := by
  have hheight : s.height = below.length + 1 := h.height_eq
  have hsize : s.frames.size = below.length + 1 := h.size_eq
  refine h.of_suffix (List.suffix_cons f below) (by omega) ?_ fun place hplace => ?_
  · rw [Array.size_extract]
    omega
  · rw [Array.getElem?_extract, if_pos (by omega), Nat.zero_add]

theorem bind {f : Frame} {below : Frames} (h : s.Represents (f :: below)) (sym : Symbol)
    (v : Value) :
    { s with
      frames := s.frames.setIfInBounds below.length (some ((f.bind sym v).above below.length))
    }.Represents (f.bind sym v :: below) where
  height_eq := h.height_eq
  size_eq := by rw [Array.size_setIfInBounds, h.size_eq, List.length_cons, List.length_cons]
  frame g rest hsuffix := by
    rcases List.suffix_cons_iff.1 hsuffix with heq | htail
    · cases heq
      have hlt : below.length < s.frames.size := by
        rw [h.size_eq]
        exact Nat.lt_succ_self _
      exact Array.getElem?_setIfInBounds_self_of_lt hlt
    · have hlt : rest.length < below.length := htail.length_le
      rw [Array.getElem?_setIfInBounds_ne (Nat.ne_of_gt hlt)]
      exact h.frame g rest (htail.trans (List.suffix_cons f below))

theorem truncate (h : s.Represents fs) {n : Int} (hpos : 0 ≤ n) (hle : n ≤ s.height) :
    ∃ s', Stack.truncate n s = (.ok (), s') ∧
      s'.Represents (fs.drop (fs.length - n.toNat)) := by
  obtain ⟨n, rfl⟩ := Int.eq_ofNat_of_zero_le hpos
  have hheight := h.height_eq
  have hsize := h.size_eq
  have hkept : (fs.drop (fs.length - n)).length = n := by
    rw [List.length_drop]
    omega
  have hnone : n - s.frames.size = 0 := by omega
  refine ⟨_, truncate_of_le (by unfold room; omega), ?_⟩
  rw [hnone, Array.replicate_zero, Array.append_empty]
  refine h.of_suffix (List.drop_suffix _ _) hkept.symm ?_ fun place hplace => ?_
  · rw [Array.size_extract]
    omega
  · rw [Array.getElem?_extract, if_pos (by omega), Nat.zero_add]

/-! ### Walks -/

/-- From the top of a tail the enclosing frames are the frames of that tail. -/
theorem walkFrom (h : s.Represents fs) :
    ∀ tail : Frames, tail <:+ fs → s.Walk tail.length.ppred tail.placed
  | [], _ => .ended
  | f :: below, hsuffix =>
    .visit (h.frame f below hsuffix) (h.walkFrom below ((List.suffix_cons f below).trans hsuffix))

theorem walk (h : s.Represents fs) : s.Walk s.topPlace? fs.placed := by
  rw [h.topPlace?]
  exact h.walkFrom fs List.suffix_rfl

theorem lookup (h : s.Represents fs) (sym : Symbol) : s.lookup sym = .ok (fs.lookup sym) := by
  rw [Stack.lookup, h.walk.lookupFrom sym s.height (by rw [Frames.length_placed, h.height_eq]),
    Frames.firstBinding_placed]

theorem get_of_lt (h : s.Represents fs) {n : Int} (hpos : 0 ≤ n) (hlt : n < s.height) :
    ∃ f below, fs.drop n.toNat = f :: below ∧ s.get n = .ok (f.above below.length) := by
  have hheight := h.height_eq
  obtain ⟨f, below, hdrop⟩ : ∃ f below, fs.drop n.toNat = f :: below :=
    List.exists_cons_of_length_pos (by rw [List.length_drop]; omega)
  have hlength : fs.length - n.toNat = below.length + 1 := by
    rw [← List.length_drop, hdrop, List.length_cons]
  have hplace : s.place? n = some below.length := by
    rw [place?, if_neg (by omega)]
    congr 1
    omega
  refine ⟨f, below, hdrop, ?_⟩
  rw [Stack.get, hplace]
  simp only [h.frameAt (hdrop ▸ List.drop_suffix n.toNat fs)]
  rfl

theorem get_zero {f : Frame} {below : Frames} (h : s.Represents (f :: below)) :
    s.get 0 = .ok (f.above below.length) := by
  have hheight : s.height = below.length + 1 := h.height_eq
  refine Stack.get_zero (by omega) ?_
  rw [hheight, Nat.add_sub_cancel]
  exact h.frame f below List.suffix_rfl

theorem popScope_nil (h : s.Represents []) : popScope s = (.error .underflow, s) := by
  have hheight : s.height = 0 := h.height_eq
  exact popScope_of_error (get_of_not_lt (by omega))

theorem popScope_global {f : Frame} {below : Frames} (h : s.Represents (f :: below))
    (hglobal : f.isGlobal = true) : popScope s = (.error .popGlobal, s) :=
  Stack.popScope_of_global h.get_zero hglobal

theorem popScope_local {f : Frame} {below : Frames} (h : s.Represents (f :: below))
    (hlocal : f.isGlobal = false) : popScope s = (.ok (), s.withoutTop) :=
  Stack.popScope_of_local h.get_zero hlocal

theorem get_iff (h : s.Represents fs) (n : Int) :
    (∃ scope, s.get n = .ok scope) ↔ 0 ≤ n ∧ n < s.height := by
  constructor
  · rintro ⟨scope, hget⟩
    by_contra hout
    rw [get_of_not_lt hout] at hget
    cases hget
  · rintro ⟨hpos, hlt⟩
    obtain ⟨f, below, -, hget⟩ := h.get_of_lt hpos hlt
    exact ⟨_, hget⟩

end Represents

/-! ### Arena and list in step -/

/-- Both give the same answer or fail alike, and the arena holds the list that is left. -/
structure Agree (arena : Except Failure Answer × Stack) (list : Except Failure Answer × Frames) :
    Prop where
  answer_eq : arena.1 = list.1
  represents : arena.2.Represents list.2

namespace Represents

theorem perform_push (h : s.Represents fs) (scope : Scope) :
    Agree (Stack.perform (.push scope) s) (Frames.perform (.push scope) fs) := by
  have hsize : s.frames.size = s.height := h.size_eq.trans h.height_eq.symm
  rw [Stack.perform]
  rw [StackM.bind_of_ok (StackM.mapError_of_ok (push_of_size_eq hsize scope))]
  exact ⟨rfl, h.withTop scope⟩

theorem perform_pop (h : s.Represents fs) :
    Agree (Stack.perform .pop s) (Frames.perform .pop fs) := by
  have hheight := h.height_eq
  have hsize := h.size_eq
  rw [Stack.perform]
  cases fs with
  | nil =>
    have hpop : pop s = (.error .underflow, s) := by
      unfold pop
      exact StackM.bind_of_error (topPlace_of_none h.topPlace? _)
    rw [StackM.bind_of_error hpop]
    exact ⟨rfl, h⟩
  | cons f below =>
    rw [List.length_cons] at hheight hsize
    rw [StackM.bind_of_ok (pop_of_lt (by omega) (by omega)), hheight, Nat.add_sub_cancel,
      h.frame f below List.suffix_rfl]
    exact ⟨rfl, h.withoutTop⟩

theorem perform_popScope (h : s.Represents fs) :
    Agree (Stack.perform .popScope s) (Frames.perform .popScope fs) := by
  rw [Stack.perform]
  cases fs with
  | nil =>
    rw [StackM.bind_of_error h.popScope_nil]
    exact ⟨rfl, h⟩
  | cons f below =>
    rw [Frames.perform]
    cases hglobal : f.isGlobal with
    | true =>
      rw [StackM.bind_of_error (h.popScope_global hglobal)]
      exact ⟨rfl, h⟩
    | false =>
      rw [StackM.bind_of_ok (h.popScope_local hglobal)]
      exact ⟨rfl, h.withoutTop⟩

theorem perform_bind (h : s.Represents fs) (sym : Symbol) (v : Value) :
    Agree (Stack.perform (.bind sym v) s) (Frames.perform (.bind sym v) fs) := by
  rw [Stack.perform]
  cases fs with
  | nil =>
    rw [StackM.bind_of_error (StackM.mapError_of_error (bind_of_none h.topPlace? sym v))]
    exact ⟨rfl, h⟩
  | cons f below =>
    have hbind := (bind_of_topPlace? h.topPlace? sym v).trans
      (bindAt_of_frame (h.frame f below List.suffix_rfl) sym v)
    rw [StackM.bind_of_ok (StackM.mapError_of_ok hbind)]
    exact ⟨rfl, h.bind sym v⟩

theorem perform_truncate (h : s.Represents fs) {n : Int} (hn : s.Admits (.truncate n)) :
    Agree (Stack.perform (.truncate n) s) (Frames.perform (.truncate n) fs) := by
  obtain ⟨s', htruncate, hs'⟩ := h.truncate hn.1 hn.2
  rw [Stack.perform]
  rw [StackM.bind_of_ok (StackM.mapError_of_ok htruncate)]
  exact ⟨rfl, hs'⟩

theorem perform_lookup (h : s.Represents fs) (sym : Symbol) :
    Agree (Stack.perform (.lookup sym) s) (Frames.perform (.lookup sym) fs) := by
  rw [Stack.perform]
  rw [StackM.bind_of_ok (StackM.mapError_of_ok (StackM.read_of_eq (h.lookup sym)))]
  exact ⟨rfl, h⟩

theorem perform_get (h : s.Represents fs) (n : Int) :
    Agree (Stack.perform (.get n) s) (Frames.perform (.get n) fs) := by
  have hheight := h.height_eq
  rw [Stack.perform, Frames.perform]
  by_cases hlt : 0 ≤ n ∧ n < s.height
  · obtain ⟨f, below, hdrop, hget⟩ := h.get_of_lt hlt.1 hlt.2
    rw [StackM.bind_of_ok (StackM.read_of_eq hget)]
    simp only [if_neg (show ¬ n < 0 by omega), hdrop]
    exact ⟨rfl, h⟩
  · rw [StackM.bind_of_error (StackM.read_of_eq (get_of_not_lt hlt))]
    by_cases hneg : n < 0
    · simp only [if_pos hneg]
      exact ⟨rfl, h⟩
    · simp only [if_neg hneg, List.drop_eq_nil_of_le (show fs.length ≤ n.toNat by omega)]
      exact ⟨rfl, h⟩

theorem perform_getTop (h : s.Represents fs) :
    Agree (Stack.perform .getTop s) (Frames.perform .getTop fs) := by
  have htop := h.topPlace?
  rw [Stack.perform]
  cases fs with
  | nil =>
    have hget : s.getTop = .error .underflow := by
      rw [getTop, htop]
      rfl
    rw [StackM.bind_of_error (StackM.mapError_of_error (StackM.read_of_eq hget))]
    exact ⟨rfl, h⟩
  | cons f below =>
    have hget : s.getTop = .ok (f.above below.length) := by
      rw [getTop, htop]
      exact h.frameAt List.suffix_rfl
    rw [StackM.bind_of_ok (StackM.mapError_of_ok (StackM.read_of_eq hget))]
    exact ⟨rfl, h⟩

theorem perform_root (h : s.Represents fs) :
    Agree (Stack.perform .root s) (Frames.perform .root fs) := by
  have hheight := h.height_eq
  rw [Stack.perform, Frames.perform]
  cases hlast : fs.getLast? with
  | none =>
    obtain rfl := List.getLast?_eq_none_iff.1 hlast
    have hroot : s.root = .error .underflow := if_pos hheight
    rw [StackM.bind_of_error (StackM.mapError_of_error (StackM.read_of_eq hroot))]
    exact ⟨rfl, h⟩
  | some f =>
    obtain ⟨upper, rfl⟩ := List.getLast?_eq_some_iff.1 hlast
    have hroot : s.root = .ok (f.above 0) := by
      rw [root, if_neg (by rw [hheight]; simp)]
      exact h.frameAt (List.suffix_append upper [f])
    rw [StackM.bind_of_ok (StackM.mapError_of_ok (StackM.read_of_eq hroot))]
    exact ⟨rfl, h⟩

/-- Every operation keeps arena and list in step. -/
theorem perform (h : s.Represents fs) (op : Operation) (hop : s.Admits op) :
    Agree (Stack.perform op s) (Frames.perform op fs) := by
  cases op with
  | push scope => exact h.perform_push scope
  | pushScope => exact h.perform_push (Scope.named [])
  | pushNamed name => exact h.perform_push (Scope.named name)
  | pop => exact h.perform_pop
  | popScope => exact h.perform_popScope
  | bind sym v => exact h.perform_bind sym v
  | truncate n => exact h.perform_truncate hop
  | lookup sym => exact h.perform_lookup sym
  | get n => exact h.perform_get n
  | getTop => exact h.perform_getTop
  | root => exact h.perform_root

/-- After any run of operations arena and list have given the same answers and are in step. -/
theorem askAll (ops : List Operation) : ∀ {s : Stack} {fs : Frames}, s.Represents fs →
    s.AdmitsAll ops →
      (askAll Stack.perform s ops).1 = (askAll Frames.perform fs ops).1 ∧
        (askAll Stack.perform s ops).2.Represents (askAll Frames.perform fs ops).2 := by
  induction ops with
  | nil => exact fun h _ => ⟨rfl, h⟩
  | cons op ops ih =>
    intro s fs h hops
    obtain ⟨hanswer, hnext⟩ := h.perform op hops.1
    obtain ⟨hanswers, hlast⟩ := ih hnext hops.2
    exact ⟨congrArg₂ List.cons hanswer hanswers, hlast⟩

end Represents

/-! ### Operations that fail -/

theorem atomic_push (scope : Scope) : StackM.Atomic (push scope) := by
  intro s
  by_cases hsize : s.frames.size = s.height
  · exact .inr ⟨(), _, push_of_size_eq hsize scope⟩
  · exact .inl ⟨_, push_of_size_ne hsize scope⟩

theorem atomic_bind (sym : Symbol) (v : Value) : StackM.Atomic (bind sym v) := by
  intro s
  rcases bind_cases s sym v with h | ⟨scope, -, h⟩
  · exact .inl h
  · exact .inr ⟨(), _, h⟩

/-- A top beyond the arena is noticed when its place is to be emptied, before the arena shrinks. -/
theorem atomic_pop : StackM.Atomic pop := by
  intro s
  by_cases hpos : 0 < s.height
  · by_cases hlt : s.height - 1 < s.frames.size
    · exact .inr ⟨_, _, pop_of_lt hpos hlt⟩
    · refine .inl ⟨.defect .outOfBounds, ?_⟩
      unfold pop
      rw [StackM.bind_of_ok (topPlace_of_topPlace? (topPlace?_of_pos hpos) _),
        StackM.bind_of_ok (show StackM.peek (s.height - 1) s = _ from rfl)]
      exact StackM.bind_of_error (StackM.mapError_of_error (StackM.bind_of_error (if_neg hlt)))
  · refine .inl ⟨.underflow, ?_⟩
    unfold pop
    exact StackM.bind_of_error (topPlace_of_none (if_pos (by omega)) _)

theorem atomic_popScope : StackM.Atomic popScope := by
  intro s
  cases htop : s.get 0 with
  | error e => exact .inl ⟨e, popScope_of_error htop⟩
  | ok scope =>
    cases hglobal : scope.isGlobal with
    | true => exact .inl ⟨.popGlobal, popScope_of_global htop hglobal⟩
    | false => exact .inr ⟨(), _, popScope_of_local htop hglobal⟩

/-- Frames are emptied only if the arena can be cut to the size asked for. -/
theorem atomic_truncate (n : Int) : StackM.Atomic (truncate n) := by
  intro s
  by_cases hneg : n < 0
  · exact .inl ⟨_, truncate_of_neg hneg⟩
  · obtain ⟨n, rfl⟩ := Int.eq_ofNat_of_zero_le (Int.not_lt.1 hneg)
    by_cases hroom : n ≤ s.room
    · exact .inr ⟨(), _, truncate_of_le hroom⟩
    · exact .inl ⟨_, truncate_of_room_lt (Nat.not_le.1 hroom)⟩

/-- No operation changes an arena and fails. -/
theorem atomic_perform (op : Operation) : StackM.Atomic (perform op) := by
  cases op with
  | push scope => exact ((atomic_push scope).mapError _).return _
  | pushScope => exact ((atomic_push _).mapError _).return _
  | pushNamed name => exact ((atomic_push _).mapError _).return _
  | pop => exact atomic_pop.return _
  | popScope => exact atomic_popScope.return _
  | bind sym v => exact ((atomic_bind sym v).mapError _).return _
  | truncate n => exact ((atomic_truncate n).mapError _).return _
  | lookup sym => exact ((StackM.atomic_read _).mapError _).return _
  | get n => exact (StackM.atomic_read _).return _
  | getTop => exact ((StackM.atomic_read _).mapError _).return _
  | root => exact ((StackM.atomic_read _).mapError _).return _

/-! ### The places of the arena -/

/-- The counts and places of an arena agree with one another. -/
structure Linked (s : Stack) : Prop where
  /-- The top is the last place, so a pushed frame comes right above it. -/
  top_eq : s.top = (s.frames.size : Int) - 1
  /-- Every place has a frame, enclosed by the place before; the lowest is enclosed by none. -/
  parent : ∀ place < s.frames.size, ∃ scope,
    s.frames[place]? = some (some scope) ∧ scope.parent = place.ppred

theorem Represents.linked (h : s.Represents fs) : s.Linked where
  top_eq := by rw [top, h.height_eq, h.size_eq]
  parent place hplace := by
    rw [h.size_eq] at hplace
    obtain ⟨f, below, hdrop⟩ : ∃ f below, fs.drop (fs.length - 1 - place) = f :: below :=
      List.exists_cons_of_length_pos (by rw [List.length_drop]; omega)
    have hlength : below.length = place := by
      have := congrArg List.length hdrop
      rw [List.length_drop, List.length_cons] at this
      omega
    subst hlength
    exact ⟨f.above below.length, h.frame f below (hdrop ▸ List.drop_suffix _ fs), rfl⟩

/-- The loops over the enclosing frames pass every place once, from the top down, and then end. -/
structure WalksOnce (s : Stack) (visited : List (Nat × Scope)) : Prop where
  walk : s.Walk s.topPlace? visited
  places : visited.map (·.1) = (List.range s.height).reverse
  /-- A look-up stops at the first frame passed that has a binding. -/
  lookup : ∀ (sym : Symbol) (fuel : Nat), s.height ≤ fuel →
    s.lookupFrom sym fuel s.topPlace? = .ok (Frames.firstBinding sym visited)
  /-- A listing has an entry for every frame passed. -/
  listing : ∀ (names : Interner) (showGlobal : Bool) (fuel : Nat), s.height ≤ fuel →
    s.listingFrom names showGlobal fuel s.topPlace? =
      (Scope.collect (entry names showGlobal) visited).map List.flatten

theorem Represents.walksOnce (h : s.Represents fs) : s.WalksOnce fs.placed := by
  have hlength : fs.placed.length = s.height := by rw [Frames.length_placed, h.height_eq]
  refine ⟨h.walk, by rw [Frames.map_fst_placed, h.height_eq], fun sym fuel hfuel => ?_,
    fun names showGlobal fuel hfuel => ?_⟩
  · exact h.walk.lookupFrom sym fuel (by omega)
  · exact h.walk.listingFrom names showGlobal fuel (by omega)

/-- Which operations on the arena fail, in terms of the list it holds. -/
structure FailsAs (s : Stack) (fs : Frames) : Prop where
  popScope_nil : fs = [] → popScope s = (.error .underflow, s)
  popScope_global : ∀ (f : Frame) (below : Frames), fs = f :: below → f.isGlobal = true →
    popScope s = (.error .popGlobal, s)
  get_iff : ∀ n : Int, (∃ scope, s.get n = .ok scope) ↔ 0 ≤ n ∧ n < s.height
  /-- The arena that a failed operation gives back is the one that it was given, whether or not the
  operation is admitted. -/
  unchanged : ∀ (op : Operation) (e : Failure), (perform op s).1 = .error e → (perform op s).2 = s

theorem Represents.failsAs (h : s.Represents fs) : s.FailsAs fs where
  popScope_nil := by
    rintro rfl
    exact h.popScope_nil
  popScope_global := by
    rintro f below rfl hglobal
    exact h.popScope_global hglobal
  get_iff := h.get_iff
  unchanged op e he := by
    rcases atomic_perform op s with ⟨e', hop⟩ | ⟨a, s', hop⟩
    · rw [hop]
    · rw [hop] at he
      cases he

/-- A run on an arena, with its answers, does what the run on a list of frames does. -/
structure Implements (arena : List (Except Failure Answer) × Stack)
    (list : List (Except Failure Answer) × Frames) : Prop where
  answers_eq : arena.1 = list.1
  represents : arena.2.Represents list.2
  linked : arena.2.Linked
  walksOnce : arena.2.WalksOnce list.2.placed
  failsAs : arena.2.FailsAs list.2

/-- Any run of operations on a new arena is a run on a list of maps: same answers, same frames. -/
theorem implements_stack_of_maps (name : Bytes) (ops : List Operation)
    (hops : (ofName name).AdmitsAll ops) :
    Implements (askAll perform (ofName name) ops) (askAll Frames.perform [] ops) := by
  obtain ⟨hanswers, h⟩ := (represents_ofName name).askAll ops hops
  exact ⟨hanswers, h, h.linked, h.walksOnce, h.failsAs⟩

/-- An empty stack asked for its top, a global frame that is not popped, a binding shadowed in an
inner frame, two frames cut off at once, a frame taken off and put back. -/
theorem implements_stack_of_maps_shadowed :
    let inner : Scope := { name := utf8 "inner", bindings := (∅ : Bindings).insert 0 (.integer 2) }
    let ops : List Operation := [.getTop, .push { name := utf8 "global", isGlobal := true },
      .bind 0 (.integer 1), .popScope, .push inner, .lookup 0, .pushScope, .pushNamed [120],
      .truncate 2, .get 2, .pop, .lookup 0, .push inner, .root, .truncate 0, .popScope]
    (ofName []).AdmitsAll ops ∧
      Implements (askAll perform (ofName []) ops) (askAll Frames.perform [] ops) := by
  intro inner ops
  have hops : (ofName []).AdmitsAll ops := by
    refine ⟨trivial, trivial, trivial, trivial, trivial, trivial, trivial, trivial, ⟨?_, ?_⟩,
      trivial, trivial, trivial, trivial, trivial, ⟨?_, ?_⟩, trivial, trivial⟩ <;> decide
  exact ⟨hops, implements_stack_of_maps [] ops hops⟩

end Stack

end SpanLisp
