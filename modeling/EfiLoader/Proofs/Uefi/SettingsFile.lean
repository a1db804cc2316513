import EfiLoader.Proofs.Ini.Cutting
import EfiLoader.Proofs.Settings
import EfiLoader.Proofs.Uefi.Graphics
import EfiLoader.Proofs.Uefi.Histories

/-!
The settings of a file that is longer than what the loader reads of it. `Delivers` says that the
file is opened and read without an error. Main statement: the loader uses the settings of the lines
that lie within the part read, unless what was read of one more line is a setting by itself: that
one takes effect too (`settings_of_file`).
-/

namespace EfiLoader.Uefi

open Ini (CutSetting joinLines wholeLines newline)

/-- The file's volume and the file can be opened, and a read gives its first bytes. -/
def Delivers (text : Bytes) : (request : Request) → Reply request → Prop
  | .openLoadedImage, reply => reply = .ok true
  | .openDevicePath, reply => reply = .ok ()
  | .locateDevicePath, reply => reply = .ok ()
  | .openFileSystem, reply => reply = .ok ()
  | .openVolume, reply => reply = .ok ()
  | .openFile _ _, reply => ∃ file, reply = .ok file
  | .getPosition _, reply => ∃ place, reply = .ok place
  | .readFile _ count, reply => reply = .ok (text.take count)
  | _, _ => True

variable {α β σ : Type} {P : (request : Request) → Reply request → Prop} {Q : α → Prop}

theorem told_of_yields_ask {request : Request} {h : List (Exchange Uefi)} {reply : Reply request}
    (yields : (ask request).Yields h reply) (told : ∀ e ∈ h, P e.request e.reply) :
    P request reply := by
  obtain rfl := yields_ask.mp yields
  exact told _ List.mem_cons_self

namespace Call

/-- With replies of that kind the call ends well, with such a value, and leaves the loader as it
was. -/
def Succeeds (P : (request : Request) → Reply request → Prop) (Q : α → Prop) (call : Call α) :
    Prop :=
  ∀ loader h outcome later, call.Yields loader h outcome later →
    (∀ e ∈ h, P e.request e.reply) → ∃ value, Q value ∧ outcome = .ok value ∧ later = loader

namespace Succeeds

theorem pure {value : α} (holds : Q value) : (pure value : Call α).Succeeds P Q := by
  intro loader h outcome later yields _
  obtain ⟨-, rfl, rfl⟩ := yields_pure.mp yields
  exact ⟨value, holds, rfl, rfl⟩

theorem bind {call : Call α} {f : α → Call β} {R : β → Prop} (first : call.Succeeds P Q)
    (rest : ∀ value, Q value → (f value).Succeeds P R) :
    (call >>= f : Call β).Succeeds P R := by
  intro loader h outcome later yields replies
  rcases yields_bind.mp yields with
    ⟨stop, before, -⟩ | ⟨first', value, middle, rest', rfl, before, after⟩
  · obtain ⟨value, -, ended, -⟩ := first _ _ _ _ before replies
    cases ended
  · obtain ⟨repliesFirst, repliesRest⟩ := List.forall_mem_append.mp replies
    obtain ⟨_, holds, ended, rfl⟩ := first _ _ _ _ before repliesFirst
    cases ended
    exact rest value holds _ _ _ _ after repliesRest

theorem ofReply {program : Program Uefi (Except Status α)}
    (replies : ∀ h reply, program.Yields h reply → (∀ e ∈ h, P e.request e.reply) →
      ∃ value, Q value ∧ reply = .ok value) : (ofReply program).Succeeds P Q := by
  intro loader h outcome later yields told
  obtain ⟨reply, replied, rfl, rfl⟩ := yields_ofReply.mp yields
  obtain ⟨value, holds, rfl⟩ := replies h reply replied told
  exact ⟨value, holds, rfl, rfl⟩

theorem lift (request : Request) {Q : Reply request → Prop}
    (replies : ∀ reply, P request reply → Q reply) :
    (liftM (ask request) : Call (Reply request)).Succeeds P Q := by
  intro loader h outcome later yields told
  obtain ⟨reply, replied, rfl, rfl⟩ := yields_lift.mp yields
  exact ⟨reply, replies reply (told_of_yields_ask replied told), rfl, rfl⟩

theorem settle {call : Call α} (succeeds : call.Succeeds P Q) :
    call.settle.Succeeds P fun settled => ∃ value, Q value ∧ settled = .ok value := by
  intro loader h result later yields told
  obtain ⟨outcome, inner, rfl⟩ := yields_settle.mp yields
  obtain ⟨value, holds, rfl, rfl⟩ := succeeds _ _ _ _ inner told
  exact ⟨.ok value, ⟨value, holds, rfl⟩, rfl, rfl⟩

end Succeeds

end Call

section File

variable {text : Bytes}

theorem openBootVolume_succeeds :
    openBootVolume.Succeeds (Delivers text) fun _ => True := by
  have opens {program : Program Uefi (Except Status Unit)}
      (replies : ∀ h reply, program.Yields h reply →
        (∀ e ∈ h, Delivers text e.request e.reply) → reply = .ok ()) :
      (Call.ofReply program).Succeeds (Delivers text) fun _ => True :=
    .ofReply fun h reply yields told => ⟨(), True.intro, replies h reply yields told⟩
  refine .bind (Q := (· = true)) (.ofReply fun _ _ yields told =>
    ⟨true, rfl, told_of_yields_ask yields told⟩) ?_
  rintro _ rfl
  refine .bind (opens fun _ _ => told_of_yields_ask) fun _ _ => ?_
  refine .bind (opens fun _ _ => told_of_yields_ask) fun _ _ => ?_
  refine .bind (opens fun _ _ => told_of_yields_ask) fun _ _ => ?_
  exact opens fun _ _ => told_of_yields_ask

theorem openRegular_succeeds (name : String) (mode : FileMode) :
    (openRegular name mode).Succeeds (Delivers text) fun _ => True := by
  refine .bind openBootVolume_succeeds fun _ _ => ?_
  refine .bind (Q := fun _ => True) (.ofReply fun _ _ yields told => ?_) fun file _ => ?_
  · obtain ⟨file, rfl⟩ := told_of_yields_ask yields told
    exact ⟨file, True.intro, rfl⟩
  refine .bind (.lift (.getPosition file) fun _ told => told) fun placed told => ?_
  obtain ⟨place, rfl⟩ := told
  exact .pure True.intro

/-- A file that is read in one go. -/
theorem readFile_succeeds (file : File) {count : Nat} (small : count ≤ readChunk) :
    (readFile file count).Succeeds (Delivers text) (· = text.take count) := by
  cases count with
  | zero =>
    rw [readFile]
    exact .pure rfl
  | succ count =>
    rw [readFile]
    refine .bind (Q := (· = text.take (count + 1))) (.ofReply fun _ _ yields told => ?_) ?_
    · rw [Nat.min_eq_left small] at yields
      exact ⟨_, rfl, told_of_yields_ask yields told⟩
    rintro _ rfl
    rw [Nat.min_eq_left small, if_neg (Nat.not_lt.mpr (List.length_take_le _ _))]
    dsimp only
    split
    · exact .pure rfl
    · rw [Nat.sub_self, readFile]
      refine .bind (Q := (· = [])) (.pure rfl) ?_
      rintro _ rfl
      exact .pure (List.append_nil _)

theorem readSettings_succeeds :
    readSettings.Succeeds (Delivers text) (· = text.take settingsLimit) := by
  refine .bind (openRegular_succeeds settingsName .read) fun file _ => ?_
  refine .bind (readFile_succeeds file (by decide)).settle fun settled read => ?_
  have closes : (liftM (ask (.closeFile file)) : Call Unit).Succeeds (Delivers text)
      fun _ => True := .lift (.closeFile file) fun _ _ => True.intro
  refine closes.bind fun _ _ => ?_
  obtain ⟨data, rfl, rfl⟩ := read
  exact .pure rfl

variable {h : List (Exchange Uefi)} {loader later : LoaderState}
  {outcome : Outcome Status Settings}

theorem settings_of_yields (yields : Loader.Yields settings loader h outcome later)
    (delivers : ∀ e ∈ h, Delivers text e.request e.reply) :
    outcome = .ok (Settings.parse (text.take settingsLimit)) ∧ later = loader := by
  obtain ⟨first, read, middle, rest, rfl, before, after⟩ := Loader.yields_bind.mp yields
  obtain ⟨data, rfl, rfl, rfl⟩ := readSettings_succeeds _ _ _ _ before
    (List.forall_mem_append.mp delivers).1
  obtain ⟨-, rfl, rfl⟩ := Loader.yields_pure.mp after
  exact ⟨rfl, rfl⟩

end File

section Cut

variable {limit : Nat} {text : Bytes}

theorem parse_take_of_cut {pair : Ini.Pair} (cut : CutSetting limit text pair) :
    Settings.parse (text.take limit) =
      (Settings.parse (joinLines (wholeLines limit text))).apply pair := by
  rw [Settings.parse, Ini.pairs_take_of_cut cut, List.foldl_append]
  rfl

theorem parse_take_of_no_cut (none : ∀ pair, ¬ CutSetting limit text pair) :
    Settings.parse (text.take limit) = Settings.parse (joinLines (wholeLines limit text)) := by
  rw [Settings.parse, Ini.pairs_take_of_no_cut none]
  rfl

/-- The limit matters exactly if a cut line's part makes a pair that changes a setting. -/
theorem parse_take_iff :
    let whole := Settings.parse (joinLines (wholeLines limit text))
    Settings.parse (text.take limit) = whole ↔
      ∀ pair, CutSetting limit text pair → whole.apply pair = whole := by
  intro whole
  constructor
  · intro same pair cut
    rw [← parse_take_of_cut cut, same]
  · intro idle
    by_cases some : ∃ pair, CutSetting limit text pair
    · obtain ⟨pair, cut⟩ := some
      rw [parse_take_of_cut cut, idle pair cut]
    · exact parse_take_of_no_cut fun pair cut => some ⟨pair, cut⟩

end Cut

/-- **What was read of a line that the limit cut takes effect if it is a setting by itself.** With a
file that is opened and read without an error the loader goes on with the settings of its first
bytes. Those of the lines that lie within these bytes are other ones exactly if the cut line's part
makes a pair that changes them. -/
theorem settings_of_file {machine : Machine Uefi σ} {text : Bytes} (loader : LoaderState)
    (state : σ) (delivers : ∀ e ∈ (settings.run loader).history machine state,
      Delivers text e.request e.reply) :
    let used := Settings.parse (text.take settingsLimit)
    let whole := Settings.parse (joinLines (wholeLines settingsLimit text))
    (∃ later, (settings.run loader).run machine state = ((.ok used, loader), later) ∧
      (start.run loader).run machine state = ((startWith used).run loader).run machine later) ∧
    (text.length ≤ settingsLimit → used = Settings.parse text) ∧
    (used = whole ↔ ∀ pair, CutSetting settingsLimit text pair → whole.apply pair = whole) ∧
    ∀ pair, CutSetting settingsLimit text pair → used = whole.apply pair := by
  intro used whole
  refine ⟨?_, ?_, parse_take_iff, fun pair => parse_take_of_cut⟩
  · have yields := Loader.yields_run machine settings loader state
    obtain ⟨read, kept⟩ := settings_of_yields yields delivers
    have ended : (settings.run loader).run machine state =
        ((.ok used, loader), ((settings.run loader).run machine state).2) :=
      Prod.ext (Prod.ext read kept) rfl
    refine ⟨_, ended, ?_⟩
    rw [start_eq, StateT.run_bind, Program.run_bind_state, ended]
  · intro short
    change Settings.parse _ = _
    rw [List.take_of_length_le short]

/-- Firmware on which every file has that text, whatever its name, and which grants all that it is
asked for. -/
def delivering (text : Bytes) : Machine Uefi Unit := fun request =>
  match request with
  | .openLoadedImage => pure (.ok true)
  | .openDevicePath | .locateDevicePath | .openFileSystem | .openVolume => pure (.ok ())
  | .openFile _ _ => pure (.ok 0)
  | .getPosition _ => pure (.ok (.ofNat text.length))
  | .readFile _ count => pure (.ok (text.take count))
  | .setPosition _ _ | .deleteFile _ | .writeFile _ _ | .freePool _ => pure (.ok ())
  | .allocatePool _ => pure (.ok ⟨0x1000, []⟩)
  | .allocatePages address _ => pure (.ok address)
  | request => displaying ⟨0, 0, 800, 600, 800, .rgb⟩ request

theorem delivering_delivers (text : Bytes) (request : Request) (state : Unit) :
    Delivers text request (delivering text request state).1 := by
  cases request with
  | openFile | getPosition => exact ⟨_, rfl⟩
  | openLoadedImage | openDevicePath | locateDevicePath | openFileSystem | openVolume
  | readFile => rfl
  | _ => trivial

/-- Behind a long comment the loader reads `paint_screen = y` of the line `paint_screen = yes`. -/
theorem settings_of_file_unpainted :
    let text := List.replicate 4079 Ini.hash ++ newline :: Bytes.utf8 "paint_screen = yes\n"
    (∀ e ∈ (settings.run {}).history (delivering text) (), Delivers text e.request e.reply) ∧
      (settings.run {}).run (delivering text) () = ((.ok { paintScreen := false }, {}), ()) ∧
      Settings.parse (joinLines (wholeLines settingsLimit text)) = {} := by
  intro text
  let comment := Ini.hash :: List.replicate 4078 Ini.hash
  let part := Bytes.utf8 "paint_screen" ++ Bytes.utf8 " = " ++ Bytes.utf8 "y"
  have split : text = comment ++ newline :: part ++ 101 :: Bytes.utf8 "s\n" := by
    rw [List.append_assoc]
    rfl
  have length : (comment ++ newline :: part).length = settingsLimit := by
    rw [List.length_append, List.length_cons, List.length_replicate]
    rfl
  obtain ⟨whole, last⟩ := Ini.wholeLines_and_cutLine (Bytes.utf8 "s\n")
    (show newline ∉ part by decide) (show 101 ≠ newline by decide) length
  rw [← split] at whole last
  have other (byte : UInt8) (apart : byte ≠ Ini.hash) : byte ∉ List.replicate 4078 Ini.hash :=
    fun member => apart (List.eq_of_mem_replicate member)
  obtain ⟨pairs, sound⟩ := Prod.mk.inj (Ini.summary_of_comment (other 0 (by decide))
    (other newline (by decide)))
  have key : Ini.Key (112 :: Bytes.utf8 "aint_screen") :=
    .letter (Ini.isLetter_iff.mp (by decide)) (Ini.nameBytes_of_all (by decide))
  have word : Ini.Written (Bytes.utf8 "y") (Bytes.utf8 "y") :=
    .bare (by decide) (Ini.nameBytes_of_all (by decide))
  have cut : CutSetting settingsLimit text ⟨Bytes.utf8 "paint_screen", Bytes.utf8 "y"⟩ := by
    refine ⟨?_, ?_, part, last, @Ini.Line.setting [] _ _ nofun (.spaced key word)⟩
    · rw [whole, List.mem_cons, not_or]
      exact ⟨by decide, other _ (by decide)⟩
    · rw [whole]
      exact Option.map_eq_none_iff.mp sound
  have defaults : Settings.parse (joinLines (wholeLines settingsLimit text)) = {} := by
    rw [whole, Settings.parse, pairs]
    rfl
  have delivers := Program.forall_mem_history (P := fun e => Delivers text e.request e.reply)
    (delivering_delivers text) (settings.run {}) ()
  obtain ⟨⟨later, ended, -⟩, -, -, used⟩ := settings_of_file {} () delivers
  rw [used _ cut, defaults] at ended
  exact ⟨delivers, ended, defaults⟩

end EfiLoader.Uefi
