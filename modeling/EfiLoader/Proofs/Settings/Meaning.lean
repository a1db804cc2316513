import EfiLoader.Proofs.Ini.Editing
import EfiLoader.Proofs.Settings
import Mathlib.Data.List.Induction

/-!
What a settings text means. Each setting is decided by the values of its own key alone, and among
them by the last that means something for it (`Item.Decides`). Main statement: so the settings of a
text follow from its pairs, and changes that keep the values of each key change no setting
(`parse_by_keys`).
-/

namespace EfiLoader.Settings

open Ini (Reader Rearranged linesOf valuesOf)
open Log (Device Level)

/-- One of the things that a text can settle: its key, what holds without a text, and what the
values of the key mean. -/
structure Item (α : Type) where
  key : Bytes
  initial : α
  Means : Bytes → α → Prop

/-- What comes of the values of the key, one after another: what the last one says that means
something, and the initial choice without such a value. -/
inductive Item.Decides {α : Type} (item : Item α) : List Bytes → α → Prop
  | unsaid {values : List Bytes} (silent : ∀ value ∈ values, ∀ a, ¬ item.Means value a) :
      item.Decides values item.initial
  | said {before after : List Bytes} {value : Bytes} {a : α} (means : item.Means value a)
      (silent : ∀ later ∈ after, ∀ b, ¬ item.Means later b) :
      item.Decides (before ++ value :: after) a

/-- What stays of values of which each replaces the one before if it means something. -/
def lastOf {α : Type} (meaning : Bytes → Option α) (a : α) (values : List Bytes) : α :=
  values.foldl (fun a value => (meaning value).getD a) a

theorem Item.decides_lastOf {α : Type} (item : Item α) {meaning : Bytes → Option α}
    (means : ∀ value a, meaning value = some a ↔ item.Means value a) (values : List Bytes) :
    item.Decides values (lastOf meaning item.initial values) := by
  induction values using List.reverseRecOn with
  | nil => exact .unsaid nofun
  | append_singleton values value ih =>
    rw [lastOf, List.foldl_append, List.foldl_cons, List.foldl_nil]
    cases said : meaning value with
    | some a => exact .said ((means value a).mp said) nofun
    | none =>
      have silent : ∀ later ∈ [value], ∀ a, ¬ item.Means later a := by
        intro later member a meant
        rw [List.mem_singleton.mp member, ← means, said] at meant
        cases meant
      change item.Decides (values ++ [value]) (lastOf meaning item.initial values)
      generalize lastOf meaning item.initial values = a at ih
      cases ih with
      | unsaid earlier => exact .unsaid (List.forall_mem_append.mpr ⟨earlier, silent⟩)
      | said meant later =>
        rw [List.append_assoc, List.cons_append]
        exact .said meant (List.forall_mem_append.mpr ⟨later, silent⟩)

def deviceWord : Device → Bytes
  | .null => Bytes.utf8 "null"
  | .console => Bytes.utf8 "stdout"
  | .com1 => Bytes.utf8 "com1"
  | .com2 => Bytes.utf8 "com2"

def levelWord : Level → Bytes
  | .error => Bytes.utf8 "error"
  | .warn => Bytes.utf8 "warn"
  | .info => Bytes.utf8 "info"
  | .debug => Bytes.utf8 "debug"
  | .trace => Bytes.utf8 "trace"

def argumentsWord : Bool → Bytes
  | false => Bytes.utf8 "frame_buffer"
  | true => Bytes.utf8 "none"

def deviceItem : Item Device := ⟨Bytes.utf8 "log_device", .console, fun value device =>
  value = deviceWord device⟩

def levelItem : Item Level := ⟨Bytes.utf8 "log_level", .info, fun value level =>
  value = levelWord level⟩

def argumentsItem : Item Bool := ⟨Bytes.utf8 "entry_args", false, fun value bare =>
  value = argumentsWord bare⟩

/-- Every value of a switch means something; those that are not in the list turn it off. -/
def Switch.item (switch : Switch) : Item Bool :=
  ⟨switch.key, switch.state {}, fun value on =>
    on = true ↔ value ∈ ["yes", "on", "1", "true"].map Bytes.utf8⟩

def keys : List Bytes :=
  [deviceItem.key, levelItem.key, argumentsItem.key, Switch.key .sourcePath,
    Switch.key .memoryMap, Switch.key .screen]

/-- Looking a value up in a table of words that differ. -/
theorem lookup_words {α : Type} {word : α → Bytes} (entries : List α)
    (apart : ∀ a b, word a = word b → a = b) {a : α} (listed : a ∈ entries) (value : Bytes) :
    (entries.map fun entry => (word entry, entry)).lookup value = some a ↔ value = word a := by
  constructor
  · intro found
    obtain ⟨earlier, later, split, -⟩ := List.lookup_eq_some_iff.mp found
    have member : (value, a) ∈ entries.map fun entry => (word entry, entry) := by
      rw [split]
      exact List.mem_append_right _ List.mem_cons_self
    obtain ⟨entry, -, same⟩ := List.mem_map.mp member
    cases same
    rfl
  · rintro rfl
    induction entries with
    | nil => cases listed
    | cons first rest ih =>
      rw [List.map_cons, List.lookup_cons]
      by_cases same : word a = word first
      · rw [same, beq_self_eq_true, apart a first same]
      · have later : a ∈ rest := by
          rcases List.mem_cons.mp listed with rfl | later
          · exact absurd rfl same
          · exact later
        rw [beq_false_of_ne same]
        exact ih later

theorem logDevice?_eq_some_iff (value : Bytes) (device : Device) :
    logDevice? value = some device ↔ deviceItem.Means value device := by
  have apart : ∀ a b, deviceWord a = deviceWord b → a = b := by
    intro a b same
    cases a <;> cases b <;> simp_all [deviceWord, Bytes.utf8_inj]
  refine lookup_words [.null, .com1, .com2, .console] apart ?_ value
  cases device <;> decide

theorem logLevel?_eq_some_iff (value : Bytes) (level : Level) :
    logLevel? value = some level ↔ levelItem.Means value level := by
  have apart : ∀ a b, levelWord a = levelWord b → a = b := by
    intro a b same
    cases a <;> cases b <;> simp_all [levelWord, Bytes.utf8_inj]
  refine lookup_words [.info, .warn, .error, .debug, .trace] apart ?_ value
  cases level <;> decide

theorem bareChoice?_eq_some_iff (value : Bytes) (bare : Bool) :
    bareChoice? value = some bare ↔ argumentsItem.Means value bare := by
  have apart : ∀ a b, argumentsWord a = argumentsWord b → a = b := by
    intro a b same
    cases a <;> cases b <;> simp_all [argumentsWord, Bytes.utf8_inj]
  refine lookup_words [false, true] apart ?_ value
  cases bare <;> decide

theorem isOn_eq_iff (switch : Switch) (value : Bytes) (on : Bool) :
    some (isOn value) = some on ↔ switch.item.Means value on := by
  change some (isOn value) = some on ↔ (on = true ↔ _)
  rw [Option.some.injEq, ← List.contains_iff_mem]
  change isOn value = on ↔ (on = true ↔ isOn value = true)
  cases on <;> cases isOn value <;> decide

/-- Settings after some pairs, setting by setting. -/
theorem foldl_apply (pairs : List Ini.Pair) (settings : Settings) :
    pairs.foldl apply settings =
      { logDevice := lastOf logDevice? settings.logDevice (valuesOf deviceItem.key pairs)
        logLevel := lastOf logLevel? settings.logLevel (valuesOf levelItem.key pairs)
        logSourcePath := lastOf (fun value => some (isOn value)) settings.logSourcePath
          (valuesOf (Switch.key .sourcePath) pairs)
        saveMemoryMap := lastOf (fun value => some (isOn value)) settings.saveMemoryMap
          (valuesOf (Switch.key .memoryMap) pairs)
        paintScreen := lastOf (fun value => some (isOn value)) settings.paintScreen
          (valuesOf (Switch.key .screen) pairs)
        bareEntry := lastOf bareChoice? settings.bareEntry
          (valuesOf argumentsItem.key pairs) } := by
  induction pairs generalizing settings with
  | nil => rfl
  | cons pair pairs ih =>
    have own {α : Type} (key : Bytes) (meaning : Bytes → Option α) (a : α) :
        lastOf meaning a (valuesOf key (pair :: pairs)) =
          lastOf meaning (if pair.key = key then (meaning pair.value).getD a else a)
            (valuesOf key pairs) := by
      rw [Ini.valuesOf_cons]
      split
      · rfl
      · rfl
    rw [List.foldl_cons, ih, apply_eq]
    simp only [own]
    rfl

/-- The settings are what the pairs decide, each by the values of its own key. -/
structure Follows (pairs : List Ini.Pair) (settings : Settings) : Prop where
  device : deviceItem.Decides (valuesOf deviceItem.key pairs) settings.logDevice
  level : levelItem.Decides (valuesOf levelItem.key pairs) settings.logLevel
  arguments : argumentsItem.Decides (valuesOf argumentsItem.key pairs) settings.bareEntry
  switches : ∀ switch : Switch,
    switch.item.Decides (valuesOf switch.item.key pairs) (switch.state settings)

theorem follows_foldl (pairs : List Ini.Pair) : Follows pairs (pairs.foldl apply {}) := by
  rw [foldl_apply]
  constructor
  · exact deviceItem.decides_lastOf logDevice?_eq_some_iff _
  · exact levelItem.decides_lastOf logLevel?_eq_some_iff _
  · exact argumentsItem.decides_lastOf bareChoice?_eq_some_iff _
  · intro switch
    have decided := switch.item.decides_lastOf (isOn_eq_iff switch)
    cases switch <;> exact decided _

/-- Pairs with the same values for each key lead to the same settings. -/
theorem foldl_apply_congr {pairs pairs' : List Ini.Pair}
    (same : ∀ key ∈ keys, valuesOf key pairs' = valuesOf key pairs) (settings : Settings) :
    pairs'.foldl apply settings = pairs.foldl apply settings := by
  simp only [keys, List.forall_mem_cons] at same
  obtain ⟨device, level, arguments, sourcePath, memoryMap, screen, -⟩ := same
  rw [foldl_apply, foldl_apply, device, level, arguments, sourcePath, memoryMap, screen]

/-- **Each setting is what the last value of its own key that means something decides.** So the
settings of a text without an error stay as they are if idle lines come in or lines with different
keys change places, and those of any text do if the lines behind its first error change. -/
theorem parse_by_keys (text : Bytes) :
    Follows (Reader.ofBytes text).pairs.1 (parse text) ∧
    ((Reader.ofBytes text).pairs.2 = none → ∀ text',
      Rearranged keys (linesOf text) (linesOf text') → parse text' = parse text) ∧
    ∀ error text', (Reader.ofBytes text).pairs.2 = some error →
      (linesOf text').take error.place.line = (linesOf text).take error.place.line →
      parse text' = parse text := by
  refine ⟨follows_foldl _, ?_, ?_⟩
  · intro sound text' rearranged
    exact foldl_apply_congr (Ini.values_of_rearranged sound rearranged).2 {}
  · intro error text' stopped same
    rw [parse, parse, Ini.pairs_of_same_start stopped same]

/-- A comment comes in and two lines change places; behind an error a line is replaced. -/
theorem parse_by_keys_shuffled :
    let text := Bytes.utf8 "log_level = warn\nlog_device = com1\n"
    let shuffled := Bytes.utf8 "# late\nlog_device = com1\nlog_level = warn\n"
    let broken := Bytes.utf8 "log_level = warn\n= oops\nlog_device = com1\n"
    let replaced := Bytes.utf8 "log_level = warn\n= oops\npaint_screen = off"
    parse text = { logLevel := .warn, logDevice := .com1 } ∧ parse shuffled = parse text ∧
      parse broken = { logLevel := .warn } ∧ parse replaced = parse broken := by
  intro text shuffled broken replaced
  have sound : (Reader.ofBytes text).pairs.2 = none := by decide +kernel
  have stopped : ∃ error, (Reader.ofBytes broken).pairs.2 = some error ∧ error.place.line = 2 := by
    have line : (Reader.ofBytes broken).pairs.2.map (·.place.line) = some 2 := by decide +kernel
    exact Option.map_eq_some_iff.mp line
  have keyOf (line key : Bytes) (oneLine : Ini.newline ∉ line)
      (read : ((⟨line, .start⟩ : Reader).next.1.toOption.bind id).map (·.key) = some key)
      (pair : Ini.Pair) (setting : Ini.Line line (some pair)) : pair.key = key := by
    have on : (⟨line, .start⟩ : Reader).OnLine 1 := ⟨oneLine, rfl⟩
    rw [on.next_eq_ok_iff.mpr setting] at read
    exact Option.some.inj read
  have rearranged : Rearranged keys (linesOf text) (linesOf shuffled) := by
    have before : linesOf text =
        [Bytes.utf8 "log_level = warn", Bytes.utf8 "log_device = com1", []] := by decide +kernel
    have after : linesOf shuffled = [Bytes.utf8 "# late", Bytes.utf8 "log_device = com1",
        Bytes.utf8 "log_level = warn", []] := by decide +kernel
    rw [before, after]
    refine @Rearranged.insert _ _ [] _ _ (.empty (.empty (@Ini.LineEnd.comment [] nofun _))) ?_
    refine @Rearranged.exchange _ _ [] _ _ _ ?_ (.same _)
    intro pair pair' level device
    rw [keyOf _ (Bytes.utf8 "log_level") (by decide) (by decide +kernel) pair level,
      keyOf _ (Bytes.utf8 "log_device") (by decide) (by decide +kernel) pair' device]
    decide
  obtain ⟨error, found, line⟩ := stopped
  have same : (linesOf replaced).take error.place.line =
      (linesOf broken).take error.place.line := by
    rw [line]
    decide +kernel
  refine ⟨by decide +kernel, (parse_by_keys text).2.1 sound shuffled rearranged,
    by decide +kernel, (parse_by_keys broken).2.2 error replaced found same⟩

end EfiLoader.Settings
