import SpanLisp.Settings.Check

/-!
# The command line comes before the settings file

A `FileSettings.Key` is a setting that both the command line and a settings file can choose.
`CommandLine.occurrences` are the flags of an argument list with the texts they take, whatever
those texts mean.  Reading the command line goes through them one by one (`Follows`), so that each
setting is what the last occurrence of its flag spells (`Follows.outcome?_eq`) and the flags given
are those that occur (`Follows.given_eq`).  What a file adds (`read_withFile`) and what is filled at
the end (`read_complete`) is said key by key.
-/

namespace SpanLisp

theorem utf8_inj {s t : String} : utf8 s = utf8 t ↔ s = t := by
  constructor
  · intro h
    apply String.toByteArray_inj.1
    apply ByteArray.ext
    exact Array.toList_inj.1 h
  · intro h
    rw [h]

/-! ### Keys -/

/-- What a setting is set to. -/
inductive Datum where
  /-- On or off. -/
  | switch (b : Bool)
  /-- A number. -/
  | number (n : Int)
  /-- A text. -/
  | text (t : Bytes)
  deriving DecidableEq, Repr

/-- A setting that the command line and a settings file can choose. -/
inductive FileSettings.Key where
  | prompt | historyFile | plainInput | quiet | trace | json | exitOnFailure | replAfterScript
  | maxDepth | verbosity | logFile | snapshotFormat
  deriving DecidableEq, Repr

namespace FileSettings.Key

/-- The name of the flag. -/
def flag : Key → String
  | prompt => "prompt"
  | historyFile => "history"
  | plainInput => "noliner"
  | quiet => "quiet"
  | trace => "trace"
  | json => "json"
  | exitOnFailure => "exitonfail"
  | replAfterScript => "afterscriptrepl"
  | maxDepth => "maxdepth"
  | verbosity => "v"
  | logFile => "log"
  | snapshotFormat => "snapshot-format"

/-- What the setting is. -/
def read (s : Settings) : Key → Datum
  | prompt => .text s.prompt
  | historyFile => .text s.historyFile
  | plainInput => .switch s.plainInput
  | quiet => .switch s.quiet
  | trace => .switch s.trace
  | json => .switch s.json
  | exitOnFailure => .switch s.exitOnFailure
  | replAfterScript => .switch s.replAfterScript
  | maxDepth => .number s.maxDepth
  | verbosity => .number s.verbosity
  | logFile => .text s.logFile
  | snapshotFormat => .text s.snapshotFormat

/-- A text of a file, which says nothing if it is empty. -/
def spoken (t : Bytes) : Option Datum := if t = [] then none else some (.text t)

/-- What a file says about the setting. -/
def said (f : FileSettings) : Key → Option Datum
  | prompt => spoken f.prompt
  | historyFile => spoken f.historyFile
  | plainInput => f.plainInput.map .switch
  | quiet => f.quiet.map .switch
  | trace => f.trace.map .switch
  | json => f.json.map .switch
  | exitOnFailure => f.exitOnFailure.map .switch
  | replAfterScript => f.replAfterScript.map .switch
  | maxDepth => f.maxDepth.map .number
  | verbosity => f.verbosity.map .number
  | logFile => spoken f.logFile
  | snapshotFormat => spoken f.snapshotFormat

/-- What a text on the command line spells; it is of the kind of the default. -/
def spelled? (k : Key) (t : Bytes) : Option Datum :=
  match k.read {} with
  | .switch _ => (Flag.switch? t).map .switch
  | .number _ => (Integer.parse t).toOption.map .number
  | .text _ => some (.text t)

/-- The setting with what replaces an empty one: a prompt, a depth limit and a format always, a
history file only if all else went well and there is a home directory. -/
def refilled (home : Bytes) (fine : Bool) (k : Key) (d : Datum) : Datum :=
  if k = prompt ∧ d = .text [] then .text (utf8 "caret> ")
  else if k = maxDepth ∧ d = .number 0 then .number 10000
  else if k = snapshotFormat ∧ d = .text [] then .text (utf8 "msgpack")
  else if k = historyFile ∧ d = .text [] ∧ fine ∧ home ≠ [] then
    .text (Path.join home (utf8 ".carethist"))
  else d

end FileSettings.Key

open FileSettings (Key)

/-- Settings are their keys and the three that only the command line can choose. -/
theorem Settings.eq_of_read {s s' : Settings} (hkeys : ∀ k : Key, k.read s = k.read s')
    (hcommand : s.command = s'.command) (hdump : s.dump = s'.dump)
    (hconfig : s.configFile = s'.configFile) : s = s' := by
  cases s
  cases s'
  simp only [Settings.mk.injEq]
  exact ⟨hcommand, Datum.switch.inj (hkeys .exitOnFailure),
    Datum.switch.inj (hkeys .replAfterScript), Datum.switch.inj (hkeys .quiet),
    Datum.switch.inj (hkeys .trace), hdump, Datum.switch.inj (hkeys .json),
    Datum.number.inj (hkeys .maxDepth), Datum.number.inj (hkeys .verbosity),
    Datum.text.inj (hkeys .logFile), Datum.text.inj (hkeys .snapshotFormat), hconfig,
    Datum.switch.inj (hkeys .plainInput), Datum.text.inj (hkeys .prompt),
    Datum.text.inj (hkeys .historyFile)⟩

/-! ### Changing one setting -/

namespace Flag

/-- What a text spells for a flag. -/
def Slot.spelled? : Slot → Bytes → Option Datum
  | switch .., t => (Flag.switch? t).map .switch
  | number .., t => (Integer.parse t).toOption.map .number
  | text .., t => some (.text t)

/-- The settings with the one of a flag changed. -/
def Slot.put (s : Settings) : Slot → Datum → Settings
  | switch _ set, .switch b => set s b
  | number _ set, .number n => set s n
  | text _ set, .text t => set s t
  | _, _ => s

/-- Is this what a flag can change its setting to? -/
def Slot.Takes : Slot → Datum → Prop
  | switch .., .switch _ => True
  | number .., .number _ => True
  | text .., .text _ => True
  | _, _ => False

theorem Slot.Takes.of_spelled? {slot : Slot} {t : Bytes} {d : Datum}
    (h : slot.spelled? t = some d) : slot.Takes d := by
  cases slot with
  | switch get set =>
    obtain ⟨b, -, rfl⟩ := Option.map_eq_some_iff.1 h
    trivial
  | number get set =>
    obtain ⟨n, -, rfl⟩ := Option.map_eq_some_iff.1 h
    trivial
  | text get set =>
    cases h
    trivial

/-- A text is accepted if it spells something, and the setting becomes what it spells. -/
theorem Slot.assign_ok {slot : Slot} {name value : Bytes} {s s' : Settings}
    (h : slot.assign name value s = (s', none)) :
    ∃ d, slot.spelled? value = some d ∧ s' = slot.put s d := by
  cases slot with
  | switch get set =>
    simp only [Slot.assign] at h
    cases hb : switch? value with
    | none => simp [hb] at h
    | some b =>
      rw [hb] at h
      exact ⟨.switch b, by simp [Slot.spelled?, hb], (Prod.mk.inj h).1.symm⟩
  | number get set =>
    simp only [Slot.assign] at h
    cases hn : Integer.parse value with
    | error e => cases e <;> simp [hn] at h
    | ok n =>
      rw [hn] at h
      exact ⟨.number n, by simp [Slot.spelled?, hn, Except.toOption], (Prod.mk.inj h).1.symm⟩
  | text get set => exact ⟨.text value, rfl, (Prod.mk.inj h).1.symm⟩

theorem mem_of_find? {name : Bytes} {f : Flag} (h : find? name = some f) :
    f ∈ all ∧ utf8 f.name = name := by
  refine ⟨List.mem_of_find?_eq_some h, ?_⟩
  simpa using List.find?_some h

/-- A flag takes the texts of the setting of its name and changes that setting; it leaves the
settings of other names as they are. -/
theorem put_cases {f : Flag} (hf : f ∈ all) (k : Key) :
    (f.name = k.flag ∧ (∀ t, f.slot.spelled? t = k.spelled? t) ∧
        ∀ s d, f.slot.Takes d → k.read (f.slot.put s d) = d) ∨
      (f.name ≠ k.flag ∧ ∀ s d, k.read (f.slot.put s d) = k.read s) := by
  simp only [all, List.mem_cons, List.not_mem_nil, or_false] at hf
  rcases hf with rfl | rfl | rfl | rfl | rfl | rfl | rfl | rfl | rfl | rfl | rfl | rfl | rfl |
    rfl | rfl <;> cases k
  all_goals first
    | exact .inr ⟨by decide, fun s d => by cases d <;> rfl⟩
    | exact .inl ⟨rfl, fun _ => rfl, fun s d hd => by cases d <;> first | rfl | exact hd.elim⟩

end Flag

/-! ### Reading the command line -/

namespace CommandLine

/-- Does a flag of this name do without a text of its own? -/
def standsAlone (name : Bytes) : Bool :=
  match (Flag.find? name).map Flag.slot with
  | some (.switch ..) => true
  | _ => false

/-- The flags of an argument list with the texts they take, in order. -/
def occurrences : List Bytes → List (Bytes × Bytes)
  | [] => []
  | arg :: rest =>
    match shape arg with
    | .flag name (some value) => (name, value) :: occurrences rest
    | .flag name none =>
      if standsAlone name then (name, utf8 "true") :: occurrences rest
      else match rest with
      | [] => []
      | value :: rest => (name, value) :: occurrences rest
    | _ => []

/-- Does an argument list give the flag of a setting? -/
def Gives (args : List Bytes) (k : Key) : Prop := utf8 k.flag ∈ (occurrences args).map (·.1)

instance (args : List Bytes) (k : Key) : Decidable (Gives args k) :=
  inferInstanceAs (Decidable (_ ∈ _))

/-- What flags change a setting to: what the last one of its name spells. -/
def outcome? (flags : List (Bytes × Bytes)) (k : Key) (d : Datum) : Option Datum :=
  (flags.reverse.lookup (utf8 k.flag)).elim (some d) k.spelled?

theorem standsAlone_of_switch {name : Bytes} {f : Flag} {get : Settings → Bool}
    {set : Settings → Bool → Settings} (hf : Flag.find? name = some f)
    (hslot : f.slot = .switch get set) : standsAlone name = true := by
  simp [standsAlone, hf, hslot]

theorem not_standsAlone {name : Bytes} {f : Flag} (hf : Flag.find? name = some f)
    (hslot : ∀ get set, f.slot = .switch get set → False) : standsAlone name = false := by
  cases h : f.slot with
  | switch get set => exact (hslot get set h).elim
  | number get set => simp [standsAlone, hf, h]
  | text get set => simp [standsAlone, hf, h]

/-- The way from one command line to another, flag by flag. -/
inductive Follows : CommandLine → List (Bytes × Bytes) → CommandLine → Prop
  | done (c : CommandLine) (args : List Bytes) : Follows c [] { c with args := args }
  | flag {c c₁ c' : CommandLine} {f : Flag} {name value : Bytes} {flags : List (Bytes × Bytes)} :
    Flag.find? name = some f → c.assign f name value = (c₁, none) → Follows c₁ flags c' →
    Follows c ((name, value) :: flags) c'

/-- A command line that is read without a mistake is read flag by flag. -/
theorem follows_of_parseFrom {args : List Bytes} {c c' : CommandLine}
    (h : c.parseFrom args = (c', none)) : Follows c (occurrences args) c' := by
  fun_induction parseFrom c args with
  | case1 c =>
    cases h
    exact .done c []
  | case2 c arg rest hshape =>
    cases h
    rw [occurrences, hshape]
    exact .done c (arg :: rest)
  | case3 c arg rest hshape =>
    cases h
    rw [occurrences, hshape]
    exact .done c rest
  | case6 c arg name f hf get set value rest hslot c₁ hassign hshape ih =>
    have halone := standsAlone_of_switch hf hslot
    rw [occurrences, hshape]
    cases value with
    | none =>
      simp only [halone, if_true]
      exact .flag hf hassign (ih h)
    | some value => exact .flag hf hassign (ih h)
  | case8 c arg name f hf value rest c₁ hassign hshape hslot ih =>
    rw [occurrences, hshape]
    exact .flag hf hassign (ih h)
  | case10 c arg name f hf value rest c₁ hassign hshape hslot ih =>
    have halone := not_standsAlone hf hslot
    rw [occurrences, hshape]
    simp only [halone, Bool.false_eq_true, if_false]
    exact .flag hf hassign (ih h)
  -- the other cases end with a mistake
  | case4 | case5 | case7 | case9 | case11 | case12 => simp at h

theorem assign_ok {c c₁ : CommandLine} {f : Flag} {name value : Bytes}
    (h : c.assign f name value = (c₁, none)) :
    ∃ d, f.slot.spelled? value = some d ∧
      c₁ = { c with settings := f.slot.put c.settings d, given := name :: c.given } := by
  cases hs : f.slot.assign name value c.settings with
  | mk s e =>
    simp only [assign, hs] at h
    cases e with
    | some e => simp at h
    | none =>
      obtain ⟨d, hd, rfl⟩ := Flag.Slot.assign_ok hs
      exact ⟨d, hd, (Prod.mk.inj h).1.symm⟩

/-- What one flag makes of a setting. -/
theorem read_assign {c c₁ : CommandLine} {f : Flag} {name value : Bytes}
    (hf : Flag.find? name = some f) (h : c.assign f name value = (c₁, none)) (k : Key) :
    outcome? [(name, value)] k (k.read c.settings) = some (k.read c₁.settings) := by
  obtain ⟨hmem, rfl⟩ := Flag.mem_of_find? hf
  obtain ⟨d, hd, rfl⟩ := assign_ok h
  rw [outcome?, List.reverse_singleton]
  obtain ⟨hk, hspelled, hput⟩ | ⟨hk, hput⟩ := Flag.put_cases hmem k
  · have hlookup : [(utf8 f.name, value)].lookup (utf8 k.flag) = some value := by simp [hk]
    rw [hlookup, hput _ _ (.of_spelled? hd), ← hd, hspelled]
    rfl
  · have hne : ¬ utf8 k.flag = utf8 f.name := fun h => hk (utf8_inj.1 h).symm
    have hlookup : [(utf8 f.name, value)].lookup (utf8 k.flag) = none := by simp [hne]
    rw [hlookup, hput]
    rfl

namespace Follows

/-- The flags given are those on the way. -/
theorem given_eq {c c' : CommandLine} {flags : List (Bytes × Bytes)} (h : Follows c flags c') :
    c'.given = (flags.map (·.1)).reverse ++ c.given := by
  induction h with
  | done c args => rfl
  | flag hf hassign hrest ih =>
    obtain ⟨d, -, rfl⟩ := assign_ok hassign
    rw [ih]
    simp

/-- Each setting is what the last flag of its name spells. -/
theorem outcome?_eq {c c' : CommandLine} {flags : List (Bytes × Bytes)} (h : Follows c flags c')
    (k : Key) : outcome? flags k (k.read c.settings) = some (k.read c'.settings) := by
  induction h with
  | done c args => rfl
  | @flag c c₁ c' f name value flags hf hassign hrest ih =>
    have hstep := read_assign hf hassign k
    rw [outcome?] at ih ⊢
    rw [List.reverse_cons, List.lookup_append]
    cases hlast : flags.reverse.lookup (utf8 k.flag) with
    | some t =>
      rw [hlast] at ih
      exact ih
    | none =>
      rw [hlast] at ih
      rw [Option.none_or, ← ih]
      exact hstep

end Follows

end CommandLine

/-! ### Taking a file over -/

/-- Completing settings fills what is empty, the history last and only if nothing is refused. -/
theorem Settings.complete_cases (s : Settings) (home : Bytes) :
    s.complete home = (s.withDefaults.withHistory home, none) ∨
      ∃ e, s.complete home = (s.withDefaults, some e) := by
  simp only [complete]
  split
  · exact .inr ⟨_, rfl⟩
  · split
    · exact .inr ⟨_, rfl⟩
    · exact .inl rfl

/-- No key is behind the settings that are the command line's alone. -/
theorem Settings.complete_keeps (s : Settings) (home : Bytes) :
    (s.complete home).1.command = s.command ∧ (s.complete home).1.dump = s.dump ∧
      (s.complete home).1.configFile = s.configFile := by
  obtain h | ⟨e, h⟩ := s.complete_cases home
  · rw [h]
    exact ⟨rfl, rfl, rfl⟩
  · rw [h]
    exact ⟨rfl, rfl, rfl⟩

namespace FileSettings.Key

theorem text_taken (given : List Bytes) (name : String) (new old : Bytes) :
    Datum.text (if new ≠ [] ∧ !given.contains (utf8 name) then new else old) =
      (if utf8 name ∈ given then none else spoken new).getD (.text old) := by
  by_cases hgiven : utf8 name ∈ given <;> by_cases hnew : new = [] <;> simp [hgiven, hnew, spoken]

theorem datum_taken {α : Type} (datum : α → Datum) (given : List Bytes) (name : String)
    (new : Option α) (old : α) :
    datum (if !given.contains (utf8 name) then new.getD old else old) =
      (if utf8 name ∈ given then none else new.map datum).getD (datum old) := by
  by_cases hgiven : utf8 name ∈ given <;> cases new <;> simp [hgiven]

/-- A file's word counts for a setting whose flag is not given. -/
theorem read_withFile (s : Settings) (given : List Bytes) (f : FileSettings) (k : Key) :
    k.read (s.withFile given f) =
      (if utf8 k.flag ∈ given then none else k.said f).getD (k.read s) := by
  cases k with
  | prompt | historyFile | logFile | snapshotFormat => exact text_taken ..
  | maxDepth | verbosity => exact datum_taken .number ..
  | plainInput | quiet | trace | json | exitOnFailure | replAfterScript =>
    exact datum_taken .switch ..

theorem read_withDefaults (s : Settings) (home : Bytes) (k : Key) :
    k.read s.withDefaults = k.refilled home false (k.read s) := by
  cases k <;> simp [read, refilled, Settings.withDefaults, apply_ite Datum.text,
    apply_ite Datum.number]

theorem read_withHistory (s : Settings) (home : Bytes) (k : Key) :
    k.read (s.withHistory home) =
      if k = historyFile ∧ k.read s = .text [] ∧ home ≠ [] then
        .text (Path.join home (utf8 ".carethist"))
      else k.read s := by
  by_cases hk : k = historyFile
  · subst hk
    by_cases hfill : s.historyFile = [] ∧ home ≠ []
    · simp [read, Settings.withHistory, Settings.historyName, hfill]
    · simp [read, Settings.withHistory, hfill]
  · rw [if_neg fun h => hk h.1]
    cases k <;> first | rfl | exact absurd rfl hk

/-- Completing fills the keys that are empty and keeps the others. -/
theorem read_complete (s : Settings) (home : Bytes) (k : Key) :
    k.read (s.complete home).1 = k.refilled home (s.complete home).2.isNone (k.read s) := by
  obtain h | ⟨e, h⟩ := s.complete_cases home
  · rw [h, read_withHistory, read_withDefaults s home]
    by_cases hk : k = historyFile <;> simp [hk, refilled]
  · rw [h]
    exact read_withDefaults s home k

end FileSettings.Key

/-- Files that say the same wherever no flag is given change settings in the same way. -/
theorem Settings.withFile_congr {s : Settings} {given : List Bytes} {f f' : FileSettings}
    (h : ∀ k : Key, utf8 k.flag ∉ given → k.said f = k.said f') :
    s.withFile given f = s.withFile given f' := by
  apply Settings.eq_of_read
  · intro k
    rw [Key.read_withFile, Key.read_withFile]
    by_cases hk : utf8 k.flag ∈ given
    · rw [if_pos hk, if_pos hk]
    · rw [if_neg hk, if_neg hk, h k hk]
  · rfl
  · rfl
  · rfl

theorem Settings.load_nil (readers : Readers) (contents : Except Files.Failure Bytes) :
    load readers [] contents = .error (.unknownFileFormat []) := rfl

theorem CommandLine.resolve_of_load {c : CommandLine} {readers : Settings.Readers}
    {contents : Except Files.Failure Bytes} {f : FileSettings}
    (h : Settings.load readers c.settings.configFile contents = .ok f) (home : Bytes) :
    c.resolve readers contents home = (c.settings.withFile c.given f).complete home := by
  have hnamed : c.settings.configFile ≠ [] := by
    intro hnil
    rw [hnil, Settings.load_nil] at h
    cases h
  rw [CommandLine.resolve, if_neg hnamed, h]

/-- What a command line comes to with the settings file it names, however files are read.  The
settings before that file are, for each key, what the last of its flags spells, or the default.
Two files that say the same wherever no flag is given come to the same.  Each key whose flag is
given keeps its setting, and each other takes what the file says if it says anything; then only
empty ones are filled.  A file that cannot be loaded changes nothing. -/
theorem CommandLine.resolve_precedence {args : List Bytes} {c : CommandLine}
    (hc : parse args = (c, none)) (readers : Settings.Readers) (home : Bytes) :
    (∀ k : Key, outcome? (occurrences args) k (k.read {}) = some (k.read c.settings)) ∧
      (∀ contents₁ contents₂ f₁ f₂, Settings.load readers c.settings.configFile contents₁ = .ok f₁ →
        Settings.load readers c.settings.configFile contents₂ = .ok f₂ →
        (∀ k : Key, ¬ Gives args k → k.said f₁ = k.said f₂) →
        c.resolve readers contents₁ home = c.resolve readers contents₂ home) ∧
      (∀ contents f, Settings.load readers c.settings.configFile contents = .ok f →
        (∀ k : Key, Gives args k → k.read (c.resolve readers contents home).1 =
          k.refilled home (c.resolve readers contents home).2.isNone (k.read c.settings)) ∧
        (∀ k : Key, ¬ Gives args k → k.read (c.resolve readers contents home).1 =
          k.refilled home (c.resolve readers contents home).2.isNone
            ((k.said f).getD (k.read c.settings))) ∧
        (c.resolve readers contents home).1.command = c.settings.command ∧
        (c.resolve readers contents home).1.dump = c.settings.dump ∧
        (c.resolve readers contents home).1.configFile = c.settings.configFile) ∧
      ∀ contents e, c.settings.configFile ≠ [] →
        Settings.load readers c.settings.configFile contents = .error e →
        c.resolve readers contents home = (c.settings, some e) := by
  have hfollows : Follows {} (occurrences args) c := follows_of_parseFrom hc
  have hgiven (k : Key) : utf8 k.flag ∈ c.given ↔ Gives args k := by
    simp [hfollows.given_eq, Gives]
  refine ⟨hfollows.outcome?_eq, ?_, ?_, ?_⟩
  · intro contents₁ contents₂ f₁ f₂ hload₁ hload₂ hagree
    rw [resolve_of_load hload₁, resolve_of_load hload₂,
      Settings.withFile_congr fun k hk => hagree k (mt (hgiven k).2 hk)]
  · intro contents f hload
    rw [resolve_of_load hload]
    refine ⟨?_, ?_, ?_⟩
    · intro k hk
      rw [Key.read_complete, Key.read_withFile, if_pos ((hgiven k).2 hk)]
      rfl
    · intro k hk
      rw [Key.read_complete, Key.read_withFile, if_neg (mt (hgiven k).1 hk)]
    · exact Settings.complete_keeps _ home
  · intro contents e hnamed hload
    rw [resolve, if_neg hnamed, hload]

/-- Two files that differ in the prompt and the greeting, below a command line that gives both: its
last prompt wins, values are shown as the file says and the file's depth limit of 0 is replaced. -/
theorem CommandLine.resolve_precedence_two_prompts :
    let args := ["-prompt", "> ", "--quiet", "-prompt=$ ", "-config", "a.toml", "b"].map utf8
    let c := (parse args).1
    let contents₁ := .ok (utf8 "prompt = \"one\"\njson = true\nmaxdepth = 0")
    let contents₂ := .ok (utf8 "prompt = \"two\"\nquiet = false\njson = true\nmaxdepth = 0")
    parse args = (c, none) ∧
      c.resolve .flat contents₁ (utf8 "/h") = c.resolve .flat contents₂ (utf8 "/h") ∧
      Key.prompt.read (c.resolve .flat contents₁ (utf8 "/h")).1 = .text (utf8 "$ ") ∧
      Key.json.read (c.resolve .flat contents₁ (utf8 "/h")).1 = .switch true ∧
      Key.maxDepth.read (c.resolve .flat contents₁ (utf8 "/h")).1 = .number 10000 ∧
      c.resolve .flat (.ok (utf8 "?")) (utf8 "/h") =
        (c.settings, some (.unparsable (utf8 "a.toml"))) := by
  intro args c contents₁ contents₂
  have hc : parse args = (c, none) := rfl
  have hload₁ : Settings.load .flat c.settings.configFile contents₁ =
      .ok { prompt := utf8 "one", json := some true, maxDepth := some 0 } := rfl
  have hload₂ : Settings.load .flat c.settings.configFile contents₂ =
      .ok { prompt := utf8 "two", quiet := some false, json := some true, maxDepth := some 0 } :=
    rfl
  obtain ⟨-, hagree, hread, hfailed⟩ := resolve_precedence hc .flat (utf8 "/h")
  obtain ⟨hgiven, hopen, -⟩ := hread contents₁ _ hload₁
  refine ⟨hc, hagree _ _ _ _ hload₁ hload₂ ?_, ?_, ?_, ?_, ?_⟩
  · intro k hk
    cases k <;> first | rfl | exact absurd (by decide) hk
  · exact (hgiven .prompt (by decide)).trans rfl
  · exact (hopen .json (by decide)).trans rfl
  · exact (hopen .maxDepth (by decide)).trans rfl
  · exact hfailed _ _ (by decide) rfl

end SpanLisp
