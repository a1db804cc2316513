import EfiLoader.Proofs.Testbed.Keys
import EfiLoader.Proofs.Testbed.Launch
import EfiLoader.Proofs.Testbed.Twins

/-!
Boot attempts on one firmware that differ in their diagnostics: whether a listing is saved, whether
the screen is painted. The key of the map that is taken first is out of date at the exit in either
case, since a kernel was loaded in between. Main statement: the attempts end with the same outcome
and have the same effects, but for the listing and the screen (`diagnostics_do_not_matter`).
-/

namespace EfiLoader

namespace Services

/-- The same report of a map with another key. -/
def MapReport.rekeyed (report : MapReport) (key : UInt64) : MapReport := { report with key }

end Services

/-- Whether a report is accepted does not depend on its key. -/
theorem MemoryMap.accept_rekeyed (buffer : Buffer) (outcome : Outcome Status Services.MapReport)
    (key : UInt64) :
    accept buffer (outcome.map (·.rekeyed key)) = (accept buffer outcome).map (·.rekeyed key) := by
  cases outcome with
  | error stop => rfl
  | ok report =>
    change accept buffer (.ok (report.rekeyed key)) = (accept buffer (.ok report)).map _
    by_cases narrow : report.stride.toNat < Descriptor.size
    · have refused : accept buffer (.ok report) = .fail (.memoryMap .invalidParameter) :=
        if_pos narrow
      have refusedToo : accept buffer (.ok (report.rekeyed key)) =
          .fail (.memoryMap .invalidParameter) := if_pos narrow
      rw [refused, refusedToo]
      rfl
    · have judged : accept buffer (.ok report) = (do
          (buffer.reach report).explain fun _ => Boot.Cause.memoryMap .invalidParameter
          return report) := if_neg narrow
      have judgedToo : accept buffer (.ok (report.rekeyed key)) = (do
          (buffer.reach report).explain fun _ => Boot.Cause.memoryMap .invalidParameter
          return report.rekeyed key) := if_neg narrow
      rw [judged, judgedToo]
      cases buffer.reach report <;> rfl

namespace Testbed

open Boot (Cause Failure Launch Options kernelPath listingPath)
open Screen (Mode)

namespace Area

/-- No byte of the area belongs to the mode's frame buffer. -/
def IsApart (area : Area) (mode : Mode) : Prop :=
  ∀ address, area.base ≤ address → address < area.limit →
    ¬ (mode.base.toNat ≤ address ∧ address < mode.base.toNat + mode.size.toNat)

theorem store_nil (area : Area) (address : Nat) : area.store address [] = area := by
  simp [store, Bytes.overlay]

theorem IsApart.fill {area : Area} {mode : Mode} (apart : area.IsApart mode) (value : UInt8) :
    area.fill mode.base.toNat mode.size.toNat value = area := by
  have empty : min (mode.base.toNat + mode.size.toNat) area.limit ≤
      max mode.base.toNat area.base := by
    have first := apart (max mode.base.toNat area.base)
    omega
  have none : List.replicate (min (mode.base.toNat + mode.size.toNat) area.limit -
      max mode.base.toNat area.base) value = [] := by
    rw [Nat.sub_eq_zero_of_le empty, List.replicate_zero]
  unfold Area.fill
  dsimp only
  rw [none, store_nil]

end Area

namespace MemoryFirmware

/-- All that two attempts did to the firmware is the same, but for the listing and the screen. -/
structure SameEffects (firmware other : MemoryFirmware) : Prop where
  physical : other.physical = firmware.physical
  pages : other.pageRequests = firmware.pageRequests
  pool : other.pool = firmware.pool
  tries : other.exitAttempts.length = firmware.exitAttempts.length
  exited : other.exited = firmware.exited
  files : FileTable.SameFiles listingPath firmware.files other.files

namespace SameEffects

variable {firmware other : MemoryFirmware}

theorem refl (firmware : MemoryFirmware) : firmware.SameEffects firmware :=
  ⟨rfl, rfl, rfl, rfl, rfl, fun _ _ => rfl⟩

theorem left (same : firmware.SameEffects other) : firmware.left.SameEffects other.left :=
  ⟨same.physical, same.pages, same.pool, same.tries, rfl, same.files⟩

theorem of_alike (alike : Alike (FileTable.SameFiles listingPath) firmware other) :
    firmware.SameEffects other := by
  obtain ⟨_, _, _, _, _, _, _, same, tries⟩ := alike
  exact ⟨rfl, rfl, rfl, tries, rfl, same⟩

end SameEffects

section Map

variable {firmware : MemoryFirmware} {map later : MemoryMap}

/-- Only the key in its reply tells the firmware from others with the same regions. -/
theorem run_memoryMap_rekeyed (firmware : MemoryFirmware) (buffer : Bytes) :
    ∃ (written : Bytes) (outcome : Outcome Status Services.MapReport),
      ∀ other : MemoryFirmware, other.exited = false →
        other.mapFailure = firmware.mapFailure → other.stride = firmware.stride →
        other.regions = firmware.regions →
        (Services.memoryMap buffer).run answer other =
          (⟨written, outcome.map (·.rekeyed other.key)⟩, other.asked) := by
  cases failure : firmware.mapFailure with
  | some status =>
    refine ⟨buffer, .fail status, fun other isOpen failing _ _ => ?_⟩
    rw [run_memoryMap isOpen, failing]
    rfl
  | none =>
    by_cases large : Kernel.wordLimit ≤ firmware.stride.toNat * firmware.regions.length
    · refine ⟨buffer, .crash, fun other isOpen noFailure stride regions => ?_⟩
      rw [run_memoryMap isOpen, noFailure, stride, regions]
      simp only [if_pos large]
      rfl
    by_cases short : buffer.length < firmware.stride.toNat * firmware.regions.length
    · refine ⟨buffer, .fail .bufferTooSmall, fun other isOpen noFailure stride regions => ?_⟩
      rw [run_memoryMap isOpen, noFailure, stride, regions]
      simp only [if_neg large, if_pos short]
      rfl
    by_cases still : firmware.stride = 0
    · refine ⟨buffer, .crash, fun other isOpen noFailure stride regions => ?_⟩
      rw [run_memoryMap isOpen, noFailure, stride, regions]
      simp only [if_neg large, if_neg short, if_pos still]
      rfl
    · let filled := writeMap firmware.stride.toNat 0 firmware.regions buffer
      let report : Services.MapReport :=
        ⟨.ofNat (firmware.stride.toNat * firmware.regions.length), 0, firmware.stride, 1⟩
      refine ⟨filled.1, filled.2.map fun () => report,
        fun other isOpen noFailure stride regions => ?_⟩
      rw [run_memoryMap isOpen, noFailure, stride, regions]
      simp only [if_neg large, if_neg short, if_neg still]
      have rekeyed : (filled.2.map fun () => report.rekeyed other.key) =
          (filled.2.map fun () => report).map (·.rekeyed other.key) := by
        cases filled.2 <;> rfl
      rw [← rekeyed]
      rfl

/-- A map that was taken again has the current key. -/
theorem of_retake_ok (isOpen : firmware.exited = false) {state : MemoryFirmware}
    (took : map.retake.run answer firmware = ((later, .ok ()), state)) :
    later.report.key = firmware.key ∧ state = firmware.asked ∧
      later.inspect = .ok later.descriptors := by
  have viewed : later.inspect = .ok later.descriptors := by
    have yields := Program.yields_run answer map.retake firmware
    rw [took] at yields
    obtain ⟨aligned, sound⟩ := (MemoryMap.retaking_of_yields yields).described
    exact sound.inspect aligned
  by_cases noRoom : map.buffer.bytes = []
  · rw [MemoryMap.retake, if_pos noRoom] at took
    cases took
  · obtain ⟨written, outcome, run⟩ := run_memoryMap_rekeyed firmware map.buffer.bytes
    rw [MemoryMap.retake] at took
    simp only [if_neg noRoom] at took
    rw [Program.run_bind_state, run firmware isOpen rfl rfl rfl] at took
    simp only [MemoryMap.accept_rekeyed] at took
    cases accepted : MemoryMap.accept
        { map.buffer with bytes := map.buffer.bytes.overlay 0 written } outcome with
    | error stop =>
      rw [accepted] at took
      cases took
    | ok report =>
      rw [accepted] at took
      cases took
      exact ⟨rfl, rfl, viewed⟩

/-- Taking a map again comes to the same, but for the key that is reported. -/
theorem retake_agree {Files : FileTable → FileTable → Prop} {twin : MemoryFirmware}
    (alike : Alike Files firmware twin) (map : MemoryMap) :
    Agree (Alike Files)
      ((map.retake.run answer firmware).1.2, (map.retake.run answer firmware).2)
      ((map.retake.run answer twin).1.2, (map.retake.run answer twin).2) := by
  by_cases noRoom : map.buffer.bytes = []
  · simp only [MemoryMap.retake, if_pos noRoom]
    exact ⟨rfl, alike⟩
  · obtain ⟨written, outcome, run⟩ := run_memoryMap_rekeyed firmware map.buffer.bytes
    have twinRun : (Services.memoryMap map.buffer.bytes).run answer twin =
        (⟨written, outcome.map (·.rekeyed twin.key)⟩, twin.asked) := by
      apply run twin alike.twin_isOpen
      all_goals
        obtain ⟨⟩ := alike
        rfl
    simp only [MemoryMap.retake, if_neg noRoom]
    rw [Program.run_bind_state, Program.run_bind_state, run firmware alike.isOpen rfl rfl rfl,
      twinRun]
    simp only [MemoryMap.accept_rekeyed]
    cases MemoryMap.accept
      { map.buffer with bytes := map.buffer.bytes.overlay 0 written } outcome with
    | ok report => exact ⟨rfl, alike.asked⟩
    | error stop => exact ⟨rfl, alike.asked⟩

end Map

section Exit

variable {firmware twin : MemoryFirmware} {map : MemoryMap}

/-- Old keys are refused on either side. -/
theorem exit_agree {Files : FileTable → FileTable → Prop} (alike : Alike Files firmware twin)
    {key : UInt64} (stale : key ≠ firmware.key) (twinStale : key ≠ twin.key) :
    Agree (Alike Files) ((Services.exitBootServices key).run answer firmware)
      ((Services.exitBootServices key).run answer twin) := by
  obtain ⟨tried, failed⟩ := alike.tried key key
  rw [run_exitBootServices alike.isOpen, run_exitBootServices alike.twin_isOpen, if_neg stale,
    if_neg twinStale, alike.exitFailures]
  cases firmware.exitFailures with
  | nil => exact ⟨rfl, tried⟩
  | cons status rest => exact ⟨rfl, failed rest⟩

/-- Each firmware lets go with its own key, unless both were set up to fail. -/
theorem exit_current_agree (alike : Alike (FileTable.SameFiles listingPath) firmware twin) :
    Agree SameEffects ((Services.exitBootServices firmware.key).run answer firmware)
      ((Services.exitBootServices twin.key).run answer twin) := by
  obtain ⟨tried, failed⟩ := alike.tried firmware.key twin.key
  rw [run_exitBootServices alike.isOpen, run_exitBootServices alike.twin_isOpen, if_pos rfl,
    if_pos rfl, alike.exitFailures]
  cases firmware.exitFailures with
  | nil => exact ⟨rfl, (SameEffects.of_alike tried).left⟩
  | cons status rest => exact ⟨rfl, .of_alike (failed rest)⟩

/-- Leaving with an old map comes to the same. -/
theorem leave_agree (alike : Alike (FileTable.SameFiles listingPath) firmware twin)
    (stale : map.report.key ≠ firmware.key) (twinStale : map.report.key ≠ twin.key) :
    Agree SameEffects
      (((Boot.leave map).run answer firmware).1.2, ((Boot.leave map).run answer firmware).2)
      (((Boot.leave map).run answer twin).1.2, ((Boot.leave map).run answer twin).2) := by
  obtain ⟨same, alike⟩ := exit_agree alike stale twinStale
  rw [Boot.leave, Program.run_bind_state, Program.run_bind_state]
  generalize (Services.exitBootServices map.report.key).run answer firmware = first at *
  generalize (Services.exitBootServices map.report.key).run answer twin = second at *
  obtain ⟨reply, firmware⟩ := first
  obtain ⟨twinReply, twin⟩ := second
  cases same
  rcases reply with (status | _) | _
  case ok => exact ⟨rfl, .of_alike alike⟩
  case error.crashed => exact ⟨rfl, .of_alike alike⟩
  case error.failed =>
    dsimp only
    by_cases other : status ≠ .invalidParameter
    · simp only [if_pos other]
      exact ⟨rfl, .of_alike alike⟩
    simp only [if_neg other]
    rw [Program.run_bind_state, Program.run_bind_state]
    obtain ⟨same, retaken⟩ := retake_agree alike map
    rcases took : map.retake.run answer firmware with ⟨⟨later, outcome⟩, state⟩
    rcases twinTook : map.retake.run answer twin with ⟨⟨twinLater, twinOutcome⟩, twinState⟩
    rw [took, twinTook] at same retaken
    cases same
    cases outcome with
    | error stop => exact ⟨rfl, .of_alike retaken⟩
    | ok _ =>
      obtain ⟨key, rfl, _⟩ := of_retake_ok alike.isOpen took
      obtain ⟨twinKey, rfl, _⟩ := of_retake_ok alike.twin_isOpen twinTook
      dsimp only
      rw [Program.run_bind_state, Program.run_bind_state, key, twinKey]
      have exited : Agree SameEffects
          ((Services.exitBootServices firmware.key).run answer firmware.asked)
          ((Services.exitBootServices twin.key).run answer twin.asked) :=
        exit_current_agree retaken
      exact exited.map fun outcome => outcome.explain Cause.exitBootServices

end Exit

section Stages

variable {firmware twin : MemoryFirmware} {map : MemoryMap} {options other : Options}

theorem leaving_result {σ α : Type} (machine : Machine Services σ) (state : σ) (step : Boot.Step)
    (leaving : Program Services (MemoryMap × Outcome Cause Unit)) (value : α) :
    (do
      let _ ← Boot.atStep step (Boot.mapOrFail leaving)
      return value : Attempt Failure α).result machine state =
        (((leaving.run machine state).1.2.explain (Failure.mk step)).map fun _ => value,
          (leaving.run machine state).2) := by
  rw [Attempt.result_bind, Boot.atStep, Attempt.result_explain, Boot.mapOrFail_result]
  obtain ⟨⟨_, _ | _⟩, _⟩ := leaving.run machine state <;> rfl

/-- From the kernel on, with a map that is out of date once the kernel is loaded. -/
theorem fromKernel_agree (alike : Alike (FileTable.SameFiles listingPath) firmware twin)
    (sameCall : options.entryCall = other.entryCall) (stale : map.report.key ≠ firmware.key + 4)
    (twinStale : map.report.key ≠ twin.key + 4) (frameBuffer : Screen.FrameBuffer) :
    Agree SameEffects ((Boot.fromKernel options map frameBuffer).result answer firmware)
      ((Boot.fromKernel other map frameBuffer).result answer twin) := by
  have loads := (alike.load (by decide : kernelPath ≠ listingPath)).explain (Failure.mk .loadKernel)
  refine .bindInto SameEffects.of_alike loads fun kernel s t loaded twinLoaded later => ?_
  rw [← key_of_load alike.isOpen (Attempt.of_result_explain_ok loaded)] at stale
  rw [← key_of_load alike.twin_isOpen (Attempt.of_result_explain_ok twinLoaded)] at twinStale
  rw [Attempt.result_lift_bind, Attempt.result_lift_bind, run_log, run_log,
    Attempt.result_lift_bind, Attempt.result_lift_bind, run_log, run_log, leaving_result,
    leaving_result, sameCall]
  exact (leave_agree later stale twinStale).map fun outcome =>
    (outcome.explain (Failure.mk .exitBootServices)).map fun _ =>
      (⟨kernel.entry, frameBuffer, other.entryCall⟩ : Launch)

theorem find_agree {Files : FileTable → FileTable → Prop} (alike : Alike Files firmware twin) :
    Agree (Alike Files) (Screen.find.result answer firmware) (Screen.find.result answer twin) := by
  refine .bind alike.graphicsMode.reply fun found alike => ?_
  rcases found with status | _ | mode
  · exact .bind (alike.log _ _ _).lift fun _ alike => ⟨rfl, alike⟩
  · exact ⟨rfl, alike⟩
  · exact .bind (alike.log _ _ _).lift fun _ alike =>
      .bind (alike.log _ _ _).lift fun _ alike => ⟨rfl, alike⟩

theorem of_find_result {mode : Mode} {later : MemoryFirmware} (isOpen : firmware.exited = false)
    (found : Screen.find.result answer firmware = (.ok mode, later)) :
    firmware.graphics = some mode ∧ later = firmware.tick := by
  have asked := run_graphicsMode isOpen
  cases failure : firmware.graphicsFailure with
  | some status =>
    rw [failure] at asked
    rw [Screen.find, Attempt.result_reply_bind_failed asked] at found
    dsimp only at found
    rw [Attempt.result_lift_bind, run_log, Attempt.result_fail] at found
    cases found
  | none =>
    rw [failure] at asked
    cases shown : firmware.graphics with
    | none =>
      rw [shown] at asked
      rw [Screen.find, Attempt.result_reply_bind_ok asked, Attempt.result_fail] at found
      cases found
    | some shownMode =>
      rw [find_result isOpen failure shown] at found
      cases found
      exact ⟨rfl, rfl⟩

/-- Listings of one map, saved or not, leave the same but for the file that they are in. -/
theorem listed_alike (firmware : MemoryFirmware) (isOpen : firmware.exited = false)
    (options other : Options) (map : MemoryMap) :
    Alike (FileTable.SameFiles listingPath) (firmware.listed options map)
      (firmware.listed other map) := by
  have saved := (firmware.lists_save listingPath (MemoryMap.Listing.texts map)).others
  unfold listed
  generalize options.saveMemoryMap = first
  generalize other.saveMemoryMap = second
  cases first <;> cases second
  · exact .mk _ _ _ _ _ _ isOpen (fun _ _ => rfl) rfl
  · exact .mk _ _ _ _ _ _ isOpen saved rfl
  · exact .mk _ _ _ _ _ _ isOpen (fun path differs => (saved path differs).symm) rfl
  · exact .mk _ _ _ _ _ _ isOpen (fun _ _ => rfl) rfl

/-- Painting changes the screen only. -/
theorem painted_of_apart {mode : Mode} (apart : firmware.physical.IsApart mode)
    (options : Options) :
    firmware.painted options mode =
      { firmware with screen := (firmware.painted options mode).screen } := by
  unfold painted
  cases options.paintScreen with
  | false => rfl
  | true =>
    have same := apart.fill Boot.paintValue
    simp [changed, same]

theorem painted_alike {Files : FileTable → FileTable → Prop} {mode : Mode}
    (alike : Alike Files firmware twin) (apart : firmware.physical.IsApart mode)
    (options other : Options) :
    Alike Files (firmware.painted options mode) (twin.painted other mode) := by
  have twinApart : twin.physical.IsApart mode := by
    obtain ⟨⟩ := alike
    exact apart
  rw [painted_of_apart apart options, painted_of_apart twinApart other]
  obtain ⟨_, _, _, _, _, _, isOpen, same, tries⟩ := alike
  exact .mk _ _ _ _ _ _ isOpen same tries

theorem fromScreen_agree (alike : Alike (FileTable.SameFiles listingPath) firmware twin)
    (apart : ∀ mode, firmware.graphics = some mode → firmware.physical.IsApart mode)
    (sameCall : options.entryCall = other.entryCall) (stale : map.report.key ≠ firmware.key + 5)
    (twinStale : map.report.key ≠ twin.key + 5) :
    Agree SameEffects ((Boot.fromScreen options map).result answer firmware)
      ((Boot.fromScreen other map).result answer twin) := by
  refine .bindInto SameEffects.of_alike ((find_agree alike).explain _)
    fun mode s t found twinFound looked => ?_
  obtain ⟨shown, rfl⟩ := of_find_result alike.isOpen (Attempt.of_result_explain_ok found)
  obtain ⟨_, rfl⟩ := of_find_result alike.twin_isOpen (Attempt.of_result_explain_ok twinFound)
  cases described : Screen.describe mode with
  | error cause => exact ⟨rfl, .of_alike looked⟩
  | ok frameBuffer =>
    have described (state : MemoryFirmware) :
        (Attempt.ofExcept (.ok frameBuffer) : Attempt Cause _).result answer state =
          (.ok frameBuffer, state) := rfl
    rw [Boot.atStep, Attempt.result_explain_bind_ok (described _),
      Attempt.result_explain_bind_ok (described _), painting_result, painting_result]
    refine fromKernel_agree (painted_alike looked (apart mode shown) options other) sameCall ?_ ?_
      frameBuffer
    · rw [key_painted, tick_key, UInt64.add_assoc]
      exact stale
    · rw [key_painted, tick_key, UInt64.add_assoc]
      exact twinStale

/-- **Diagnostics do not matter to a boot attempt.** Whether a listing is saved and the screen is
painted, the attempt ends with the same launch, failure or crash, and the firmware has the same
memory, pages, pool blocks, number of tries to exit and files but for the listing. -/
theorem diagnostics_do_not_matter (isOpen : firmware.exited = false)
    (writable : firmware.writesBeforeFailure = none)
    (apart : ∀ mode, firmware.graphics = some mode → firmware.physical.IsApart mode)
    (buffer : MemoryMap.Buffer) (sameCall : options.entryCall = other.entryCall) :
    Agree SameEffects ((Boot.prepare buffer options).result answer firmware)
      ((Boot.prepare buffer other).result answer firmware) := by
  rw [Boot.prepare_eq, Boot.prepare_eq]
  have start : Agree (· = ·)
      ((Boot.atStep .getMemoryMap (Boot.mapOrFail (MemoryMap.take buffer))).result answer firmware)
      ((Boot.atStep .getMemoryMap (Boot.mapOrFail (MemoryMap.take buffer))).result answer
        firmware) := ⟨rfl, rfl⟩
  refine .bindInto (fun {s t} (same : s = t) => same ▸ .refl s) start fun map s t took _ same => ?_
  subst same
  rw [Attempt.result_lift_bind, Attempt.result_lift_bind, run_log]
  have took := Boot.of_mapOrFail_result_ok (Attempt.of_result_explain_ok took)
  rw [MemoryMap.take] at took
  obtain ⟨key, rfl, viewed⟩ := of_retake_ok isOpen took
  have stale (options : Options) :
      map.report.key ≠ (firmware.asked.listed options map).key + 5 := by
    rw [key]
    rcases firmware.asked.key_listed options map with listed | listed
    all_goals simp [listed, UInt64.add_assoc]
  rw [firmware.asked.listing_result options isOpen writable viewed,
    firmware.asked.listing_result other isOpen writable viewed]
  refine fromScreen_agree (listed_alike firmware.asked isOpen options other map) ?_ sameCall
    (stale options) (stale other)
  rw [graphics_listed, physical_listed]
  exact apart

end Stages

/-- An attempt with all diagnostics and one without, on a firmware that can boot. -/
theorem diagnostics_do_not_matter_listed :
    let buffer : MemoryMap.Buffer := ⟨0x2000, List.replicate 96 0⟩
    let mode : Mode := ⟨0x80000000, 0x1000, 32, 32, 32, .bgr⟩
    let firmware : MemoryFirmware :=
      { regions := [⟨7, 0x1000, 0, 2, 0xf⟩, ⟨4, 0x3000, 0, 1, 0xf⟩]
        stride := 48
        files := ⟨[(kernelPath, Kernel.overlapping), (listingPath, [1])], []⟩
        physical := ⟨0x100000, List.replicate 0x1000 0xcc⟩
        graphics := some mode
        screen := some ⟨0x80000000, List.replicate 0x1000 0⟩ }
    let plain : Options := { saveMemoryMap := false, paintScreen := false }
    let run := (Boot.prepare buffer {}).result answer firmware
    let plainRun := (Boot.prepare buffer plain).result answer firmware
    (firmware.exited = false ∧ firmware.writesBeforeFailure = none ∧
      ∀ mode, firmware.graphics = some mode → firmware.physical.IsApart mode) ∧
    Agree SameEffects run plainRun ∧
    plainRun.1 = .ok ⟨0x100010, ⟨0x80000000, 32, 32, 32, .bgr⟩, .withFrameBuffer⟩ := by
  intro buffer mode firmware plain run plainRun
  have apart : ∀ mode, firmware.graphics = some mode → firmware.physical.IsApart mode := by
    intro _ same address _ below inside
    cases same
    have limit : firmware.physical.limit = 0x101000 := by rw [Area.limit, List.length_replicate]
    have base : mode.base.toNat = 0x80000000 := rfl
    omega
  have agree : Agree SameEffects run plainRun := diagnostics_do_not_matter rfl rfl apart buffer rfl
  have ended : plainRun.1 = .ok ⟨0x100010, ⟨0x80000000, 32, 32, 32, .bgr⟩, .withFrameBuffer⟩ := by
    decide +kernel
  exact ⟨⟨rfl, rfl, apart⟩, agree, ended⟩

end MemoryFirmware

end Testbed

end EfiLoader
