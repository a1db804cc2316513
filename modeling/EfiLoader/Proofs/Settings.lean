import EfiLoader.Proofs.Ini.Joining
import EfiLoader.Settings

/-!
What a value without a meaning does to the settings. A choice is left as it was, a switch is turned
off: `apply_of_unknown`, `apply_of_unknown_switch`. Main statement: a line with such a value counts
for nothing unless it turns a switch off for good (`parse_unknown`).
-/

namespace EfiLoader.Settings

open Ini (Pair Reader newline)

/-- The settings that are on or off. -/
inductive Switch where
  | sourcePath
  | memoryMap
  | screen
  deriving DecidableEq, Repr

namespace Switch

def key : Switch → Bytes
  | .sourcePath => Bytes.utf8 "log_source_path"
  | .memoryMap => Bytes.utf8 "save_memory_map"
  | .screen => Bytes.utf8 "paint_screen"

def state (settings : Settings) : Switch → Bool
  | .sourcePath => settings.logSourcePath
  | .memoryMap => settings.saveMemoryMap
  | .screen => settings.paintScreen

def turnOff (settings : Settings) : Switch → Settings
  | .sourcePath => { settings with logSourcePath := false }
  | .memoryMap => { settings with saveMemoryMap := false }
  | .screen => { settings with paintScreen := false }

theorem key_inj {switch switch' : Switch} (same : switch.key = switch'.key) :
    switch = switch' := by
  cases switch <;> cases switch' <;> simp_all [key, Bytes.utf8_inj]

end Switch

/-- The values that have a meaning for a key. -/
inductive Known : Bytes → Bytes → Prop
  | device {value : Bytes}
      (name : value ∈ ["null", "stdout", "com1", "com2"].map Bytes.utf8) :
      Known (Bytes.utf8 "log_device") value
  | level {value : Bytes}
      (name : value ∈ ["error", "warn", "info", "debug", "trace"].map Bytes.utf8) :
      Known (Bytes.utf8 "log_level") value
  | arguments {value : Bytes}
      (name : value ∈ ["frame_buffer", "none"].map Bytes.utf8) :
      Known (Bytes.utf8 "entry_args") value
  | switch (switch : Switch) {value : Bytes}
      (name : value ∈ ["yes", "on", "1", "true", "no", "off", "0", "false"].map Bytes.utf8) :
      Known switch.key value

/-- Each setting follows its own key. -/
theorem apply_eq (settings : Settings) (pair : Pair) :
    settings.apply pair =
      { logDevice :=
          if pair.key = Bytes.utf8 "log_device" then
            (logDevice? pair.value).getD settings.logDevice else settings.logDevice
        logLevel :=
          if pair.key = Bytes.utf8 "log_level" then
            (logLevel? pair.value).getD settings.logLevel else settings.logLevel
        logSourcePath :=
          if pair.key = Switch.key .sourcePath then isOn pair.value else settings.logSourcePath
        saveMemoryMap :=
          if pair.key = Switch.key .memoryMap then isOn pair.value else settings.saveMemoryMap
        paintScreen :=
          if pair.key = Switch.key .screen then isOn pair.value else settings.paintScreen
        bareEntry :=
          if pair.key = Bytes.utf8 "entry_args" then
            (bareChoice? pair.value).getD settings.bareEntry else settings.bareEntry } := by
  unfold apply Switch.key
  dsimp only
  -- One case for each key: the keys differ, so only the field of that key is touched.
  split
  · simp [*, Bytes.utf8_inj]
  split
  · simp [*, Bytes.utf8_inj]
  split
  · simp [*, Bytes.utf8_inj]
  split
  · simp [*, Bytes.utf8_inj]
  split
  · simp [*, Bytes.utf8_inj]
  split
  · simp [*]
  · simp [*]

section Unknown

variable {pair : Pair} (unknown : ¬ Known pair.key pair.value)
include unknown

theorem logDevice?_of_unknown (own : pair.key = Bytes.utf8 "log_device") :
    logDevice? pair.value = none := by
  have other := mt Known.device (own ▸ unknown)
  simp only [List.map_cons, List.map_nil, List.mem_cons, not_or] at other
  simp [logDevice?, List.lookup_eq_none_iff, other]

theorem logLevel?_of_unknown (own : pair.key = Bytes.utf8 "log_level") :
    logLevel? pair.value = none := by
  have other := mt Known.level (own ▸ unknown)
  simp only [List.map_cons, List.map_nil, List.mem_cons, not_or] at other
  simp [logLevel?, List.lookup_eq_none_iff, other]

theorem bareChoice?_of_unknown (own : pair.key = Bytes.utf8 "entry_args") :
    bareChoice? pair.value = none := by
  have other := mt Known.arguments (own ▸ unknown)
  simp only [List.map_cons, List.map_nil, List.mem_cons, not_or] at other
  simp [bareChoice?, List.lookup_eq_none_iff, other]

theorem isOn_of_unknown {switch : Switch} (own : pair.key = switch.key) :
    isOn pair.value = false := by
  have other := mt (Known.switch switch) (own ▸ unknown)
  simp only [List.map_cons, List.map_nil, List.mem_cons, not_or] at other
  simp [isOn, other]

/-- A choice stays as it was. -/
theorem apply_of_unknown (choice : ∀ switch : Switch, pair.key ≠ switch.key)
    (settings : Settings) : settings.apply pair = settings := by
  have device := logDevice?_of_unknown unknown
  have level := logLevel?_of_unknown unknown
  have arguments := bareChoice?_of_unknown unknown
  rw [apply_eq, if_neg (choice .sourcePath), if_neg (choice .memoryMap), if_neg (choice .screen)]
  have kept {α : Type} {key : Bytes} {o : Option α} (none : pair.key = key → o = .none) (a : α) :
      (if pair.key = key then o.getD a else a) = a := by
    split
    · rw [none ‹_›, Option.getD_none]
    · rfl
  rw [kept device, kept level, kept arguments]

/-- A switch is turned off. -/
theorem apply_of_unknown_switch {switch : Switch} (own : pair.key = switch.key)
    (settings : Settings) : settings.apply pair = switch.turnOff settings := by
  have off := isOn_of_unknown unknown own
  rw [apply_eq, off, own]
  cases switch <;> simp [Switch.key, Switch.turnOff, Bytes.utf8_inj]

end Unknown

section Switch

variable {switch : Switch} {pair : Pair}

theorem apply_turnOff (settings : Settings) :
    (switch.turnOff settings).apply pair =
      if pair.key = switch.key then settings.apply pair
      else switch.turnOff (settings.apply pair) := by
  by_cases own : pair.key = switch.key
  · cases switch <;> simp [apply_eq, Switch.turnOff, own]
  · cases switch <;> simp [apply_eq, Switch.turnOff, own]

theorem state_apply (other : pair.key ≠ switch.key) (settings : Settings) :
    switch.state (settings.apply pair) = switch.state settings := by
  cases switch <;> simp [apply_eq, Switch.state, other]

theorem turnOff_eq_self_iff {settings : Settings} :
    switch.turnOff settings = settings ↔ switch.state settings = false := by
  cases settings
  cases switch <;> simp [Switch.turnOff, Switch.state, eq_comm]

/-- A switch that was turned off stays so until it is set, and then it is as if it had not been. -/
theorem foldl_turnOff (pairs : List Pair) (settings : Settings) :
    pairs.foldl apply (switch.turnOff settings) =
      if ∃ pair ∈ pairs, pair.key = switch.key then pairs.foldl apply settings
      else switch.turnOff (pairs.foldl apply settings) := by
  induction pairs generalizing settings with
  | nil => simp
  | cons pair pairs ih =>
    rw [List.foldl_cons, List.foldl_cons, apply_turnOff]
    by_cases own : pair.key = switch.key
    · simp [own]
    · rw [if_neg own, ih]
      simp [own]

theorem state_foldl {pairs : List Pair} (others : ∀ pair ∈ pairs, pair.key ≠ switch.key)
    (settings : Settings) :
    switch.state (pairs.foldl apply settings) = switch.state settings := by
  induction pairs generalizing settings with
  | nil => rfl
  | cons pair pairs ih =>
    rw [List.foldl_cons, ih (fun later member => others later (List.mem_cons_of_mem _ member)),
      state_apply (others pair List.mem_cons_self)]

end Switch

section Parse

variable {before key spelling value : Bytes} (plain : 0 ∉ before)
  (sound : (Reader.ofBytes before).pairs.2 = none)
include plain sound

theorem parse_join (after : Bytes) :
    parse (before ++ newline :: after) =
      (Reader.ofBytes after).pairs.1.foldl apply (parse before) := by
  rw [parse, Ini.pairs_join plain sound, List.foldl_append, parse]

variable (named : Ini.Key key) (written : Ini.Written spelling value) (noNul : 0 ∉ spelling)
  (oneLine : newline ∉ spelling)
include named written noNul oneLine

/-- A line more in a text is a step more between the settings before it and those after it. -/
theorem parse_line (after : Bytes) :
    parse (before ++ newline :: (key ++ Bytes.utf8 " = " ++ spelling ++ newline :: after)) =
      (Reader.ofBytes after).pairs.1.foldl apply ((parse before).apply ⟨key, value⟩) := by
  rw [parse_join plain sound, Ini.pairs_assignment named written noNul oneLine, List.foldl_cons]

variable (unknown : ¬ Known key value) (after : Bytes)
include unknown

theorem parse_unknown_choice (choice : ∀ switch : Switch, key ≠ switch.key) :
    parse (before ++ newline :: (key ++ Bytes.utf8 " = " ++ spelling ++ newline :: after)) =
      parse (before ++ newline :: after) := by
  have skipped : (parse before).apply ⟨key, value⟩ = parse before :=
    apply_of_unknown unknown choice _
  rw [parse_line plain sound named written noNul oneLine, skipped, parse_join plain sound]

theorem parse_unknown_switch {switch : Switch} (own : key = switch.key) :
    parse (before ++ newline :: (key ++ Bytes.utf8 " = " ++ spelling ++ newline :: after)) =
      if ∃ pair ∈ (Reader.ofBytes after).pairs.1, pair.key = key then
        parse (before ++ newline :: after)
      else switch.turnOff (parse (before ++ newline :: after)) := by
  have off : (parse before).apply ⟨key, value⟩ = switch.turnOff (parse before) :=
    apply_of_unknown_switch unknown own _
  rw [parse_line plain sound named written noNul oneLine, off, foldl_turnOff, own,
    parse_join plain sound]

theorem parse_unknown_switch_iff {switch : Switch} (own : key = switch.key) :
    parse (before ++ newline :: (key ++ Bytes.utf8 " = " ++ spelling ++ newline :: after)) =
        parse (before ++ newline :: after) ↔
      switch.state (parse before) = false ∨
        ∃ pair ∈ (Reader.ofBytes after).pairs.1, pair.key = key := by
  rw [parse_unknown_switch plain sound named written noNul oneLine unknown after own]
  by_cases again : ∃ pair ∈ (Reader.ofBytes after).pairs.1, pair.key = key
  · rw [if_pos again]
    exact ⟨fun _ => .inr again, fun _ => rfl⟩
  · have others : ∀ pair ∈ (Reader.ofBytes after).pairs.1, pair.key ≠ switch.key :=
      fun pair member same => again ⟨pair, member, same.trans own.symm⟩
    rw [if_neg again, turnOff_eq_self_iff, parse_join plain sound, state_foldl others]
    exact ⟨.inl, fun off => off.resolve_right again⟩

end Parse

/-- **An unknown value is skipped, but it turns a switch off.** A line with a value that has no
meaning for its key, behind a text without an error, leaves the settings as they are without that
line; except that a switch which is on there, and is not set again behind the line, is off. -/
theorem parse_unknown {before key spelling value : Bytes} (plain : 0 ∉ before)
    (sound : (Reader.ofBytes before).pairs.2 = none) (named : Ini.Key key)
    (written : Ini.Written spelling value) (noNul : 0 ∉ spelling) (oneLine : newline ∉ spelling)
    (unknown : ¬ Known key value) (after : Bytes) :
    (parse (before ++ newline :: (key ++ Bytes.utf8 " = " ++ spelling ++ newline :: after)) =
        parse (before ++ newline :: after) ↔
      ∀ switch : Switch, key = switch.key → switch.state (parse before) = false ∨
        ∃ pair ∈ (Reader.ofBytes after).pairs.1, pair.key = key) ∧
    ∀ switch : Switch, key = switch.key →
      parse (before ++ newline :: (key ++ Bytes.utf8 " = " ++ spelling ++ newline :: after)) =
          parse (before ++ newline :: after) ∨
        parse (before ++ newline :: (key ++ Bytes.utf8 " = " ++ spelling ++ newline :: after)) =
          switch.turnOff (parse (before ++ newline :: after)) := by
  constructor
  · by_cases choice : ∀ switch : Switch, key ≠ switch.key
    · have skipped := parse_unknown_choice plain sound named written noNul oneLine unknown after
        choice
      constructor
      · intro _ switch own
        exact absurd own (choice switch)
      · intro _
        exact skipped
    · simp only [ne_eq, Classical.not_forall, Decidable.not_not] at choice
      obtain ⟨switch, own⟩ := choice
      rw [parse_unknown_switch_iff plain sound named written noNul oneLine unknown after own]
      constructor
      · intro skipped switch' own'
        rw [← Switch.key_inj (own.symm.trans own')]
        exact skipped
      · intro each
        exact each switch own
  · intro switch own
    rw [parse_unknown_switch plain sound named written noNul oneLine unknown after own]
    split
    · exact .inl rfl
    · exact .inr rfl

theorem parse_unknown_painting :
    Ini.Key (Bytes.utf8 "paint_screen") ∧ Ini.Written (Bytes.utf8 "maybe") (Bytes.utf8 "maybe") ∧
      ¬ Known (Bytes.utf8 "paint_screen") (Bytes.utf8 "maybe") ∧
      parse (newline :: (Bytes.utf8 "paint_screen" ++ Bytes.utf8 " = " ++ Bytes.utf8 "maybe" ++
        [newline])) ≠ parse [newline] := by
  have nothing : (Reader.ofBytes []).summary = ([], none) := Reader.summary_nil .start
  rw [Reader.summary, Prod.mk.injEq, Option.map_eq_none_iff] at nothing
  have named : Ini.Key (Bytes.utf8 "paint_screen") := by
    have spelled : Bytes.utf8 "paint_screen" = 112 :: Bytes.utf8 "aint_screen" := by decide
    rw [spelled]
    exact .letter (Ini.isLetter_iff.mp (by decide)) (Ini.nameBytes_of_all (by decide))
  have written : Ini.Written (Bytes.utf8 "maybe") (Bytes.utf8 "maybe") :=
    .bare (by decide) (Ini.nameBytes_of_all (by decide))
  have unknown : ¬ Known (Bytes.utf8 "paint_screen") (Bytes.utf8 "maybe") := by
    generalize same : Bytes.utf8 "paint_screen" = key
    intro known
    cases known with
    | device | level | arguments => simp [Bytes.utf8_inj] at same
    | switch _ name => simp [Bytes.utf8_inj] at name
  refine ⟨named, written, unknown, ?_⟩
  intro skipped
  have effect := parse_unknown List.not_mem_nil nothing.2 named written (by decide) (by decide)
    unknown []
  have off := effect.1.mp skipped .screen rfl
  rw [nothing.1, parse, nothing.1] at off
  cases off with
  | inl off => cases off
  | inr again =>
    obtain ⟨_, member, _⟩ := again
    cases member

end EfiLoader.Settings
