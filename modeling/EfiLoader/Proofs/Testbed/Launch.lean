import EfiLoader.Proofs.Boot.Stages
import EfiLoader.Proofs.Testbed.Charting
import EfiLoader.Proofs.Testbed.Loading

/-!
A whole boot attempt on firmware in memory in which nothing fails. The key of the map that is taken
first is out of date by the time of the exit, since the kernel was loaded in between; the second one
is current. Main statement: the attempt hands off (`boot_hands_off`).
-/

namespace EfiLoader

/-- The pixel format that has its colours in that order. -/
def Screen.ColourOrder.format : Screen.ColourOrder → Screen.PixelFormat
  | rgb => .rgb
  | bgr => .bgr

theorem Screen.describe_of_format {mode : Screen.Mode} {order : Screen.ColourOrder}
    (format : mode.format = order.format) :
    Screen.describe mode = .ok ⟨mode.base, mode.stride, mode.width, mode.height, order⟩ := by
  rw [describe, format]
  cases order <;> rfl

theorem Boot.mapOrFail_result {σ : Type} (machine : Machine Services σ) (state : σ)
    (taken : Program Services (MemoryMap × Outcome Boot.Cause Unit)) :
    (mapOrFail taken).result machine state =
      ((taken.run machine state).1.2.map fun () => (taken.run machine state).1.1,
        (taken.run machine state).2) :=
  Program.run_bind_state taken _ state

theorem Boot.of_mapOrFail_result_ok {σ : Type} {machine : Machine Services σ} {state later : σ}
    {taken : Program Services (MemoryMap × Outcome Boot.Cause Unit)} {map : MemoryMap}
    (ended : (mapOrFail taken).result machine state = (.ok map, later)) :
    taken.run machine state = ((map, .ok ()), later) := by
  rw [mapOrFail_result] at ended
  rcases took : taken.run machine state with ⟨⟨_, _ | _⟩, _⟩
  · rw [took] at ended
    cases ended
  · rw [took] at ended
    cases ended
    rfl

namespace Testbed

open Boot (Cause Failure Launch Options kernelPath listingPath)
open Kernel (Executable Fits Span)
open Screen (ColourOrder Mode)

namespace MemoryFirmware

variable {firmware later : MemoryFirmware} {buffer : MemoryMap.Buffer} {map : MemoryMap}

/-- The firmware may have allocated, written files and painted since, and nothing else. -/
inductive Continues (firmware : MemoryFirmware) : MemoryFirmware → Prop
  | mk (key : UInt64) (mapCalls : Nat) (files : FileTable)
      (writesBeforeFailure : Option (Nat × Status)) (physical : Area) (screen : Option Area)
      (base : physical.base = firmware.physical.base)
      (limit : physical.limit = firmware.physical.limit) :
      Continues firmware
        { firmware with key, mapCalls, files, writesBeforeFailure, physical, screen }

namespace Continues

theorem trans {last : MemoryFirmware} (first : firmware.Continues later)
    (second : later.Continues last) : firmware.Continues last := by
  obtain ⟨_, _, _, _, _, _, base, limit⟩ := first
  obtain ⟨key, mapCalls, files, writes, physical, screen, base', limit'⟩ := second
  exact .mk key mapCalls files writes physical screen (base'.trans base) (limit'.trans limit)

theorem asked (firmware : MemoryFirmware) : firmware.Continues firmware.asked :=
  .mk _ _ _ _ _ _ rfl rfl

theorem tick (firmware : MemoryFirmware) : firmware.Continues firmware.tick :=
  .mk _ _ _ _ _ _ rfl rfl

/-- What no step before the kernel changes. -/
theorem unchanged (continues : firmware.Continues later) :
    later.exited = firmware.exited ∧ later.graphics = firmware.graphics ∧
      later.graphicsFailure = firmware.graphicsFailure ∧
      later.exitFailures = firmware.exitFailures ∧ later.exitAttempts = firmware.exitAttempts ∧
      later.pageRequests = firmware.pageRequests ∧ later.pool = firmware.pool := by
  obtain ⟨⟩ := continues
  exact ⟨rfl, rfl, rfl, rfl, rfl, rfl, rfl⟩

theorem mapFits (continues : firmware.Continues later) (fits : firmware.MapFits buffer) :
    later.MapFits buffer := by
  obtain ⟨⟩ := continues
  exact fits.congr rfl rfl rfl

theorem canLoad {path : String} {file : Bytes} {kernel : Executable} {span : Span} {pages : Nat}
    (continues : firmware.Continues later) (can : firmware.CanLoad path file kernel span pages)
    (present : later.files.volume.contents? path = some file) :
    later.CanLoad path file kernel span pages := by
  obtain ⟨key, mapCalls, files, writes, physical, screen, base, limit⟩ := continues
  have room : physical.HasRoom firmware.reserved span pages :=
    ⟨base ▸ can.room.above, limit ▸ can.room.below, limit ▸ can.room.bounded, can.room.apart⟩
  exact ⟨present, can.fits, can.unlimited, can.granted, can.bounded, room⟩

end Continues

/-- What a firmware that let go has seen: a call with an old key, then one with its own. -/
def leftAfter (firmware : MemoryFirmware) (key : UInt64) : MemoryFirmware :=
  ((firmware.tried key).asked.tried firmware.key).left

/-- With an old key the exit is refused; it succeeds with that of a new map. -/
theorem leave_run (isOpen : firmware.exited = false) (noFailures : firmware.exitFailures = [])
    (stale : map.report.key ≠ firmware.key) (fits : firmware.MapFits map.buffer) :
    (Boot.leave map).run answer firmware =
      ((firmware.charted map.buffer, .ok ()), firmware.leftAfter map.report.key) := by
  have refused : (Services.exitBootServices map.report.key).run answer firmware =
      (.fail .invalidParameter, firmware.tried map.report.key) := by
    rw [run_exitBootServices isOpen, noFailures]
    exact if_neg stale
  have triedFits : (firmware.tried map.report.key).MapFits map.buffer := fits.congr rfl rfl rfl
  have exited : (Services.exitBootServices firmware.key).run answer
      (firmware.tried map.report.key).asked = (.ok (), firmware.leftAfter map.report.key) := by
    have failuresStill : (firmware.tried map.report.key).asked.exitFailures = [] := noFailures
    have openStill : (firmware.tried map.report.key).asked.exited = false := isOpen
    rw [run_exitBootServices openStill, failuresStill]
    exact if_pos rfl
  rw [Boot.leave, Program.run_bind_state, refused]
  simp only [Outcome.fail, ne_eq, not_true_eq_false, if_false]
  rw [Program.run_bind_state, triedFits.retake_run isOpen]
  dsimp only
  have current : ((firmware.tried map.report.key).charted map.buffer).report.key =
      firmware.key := rfl
  rw [Program.run_bind_state, current, exited]
  rfl

/-- The firmware with the listing of a map saved, if one is wanted. -/
def listed (firmware : MemoryFirmware) (options : Options) (map : MemoryMap) : MemoryFirmware :=
  if options.saveMemoryMap then
    (firmware.created listingPath).wroteAll firmware.files.handles.length
      (MemoryMap.Listing.texts map)
  else firmware

/-- The firmware with its screen painted, if it is to be painted. -/
def painted (firmware : MemoryFirmware) (options : Options) (mode : Mode) : MemoryFirmware :=
  if options.paintScreen then
    firmware.changed (·.fill mode.base.toNat mode.size.toNat Boot.paintValue)
  else firmware

section Diagnostics

variable {α : Type} (firmware : MemoryFirmware) (options : Options)

theorem listing_result (isOpen : firmware.exited = false)
    (writable : firmware.writesBeforeFailure = none)
    (viewed : map.inspect = .ok map.descriptors) (rest : Attempt Failure α) :
    (do
      if options.saveMemoryMap then
        Boot.atStep .saveMemoryMap (MemoryMap.Listing.save map listingPath)
        Services.log .info Boot.target ("Memory map saved to " ++ listingPath)
      rest : Attempt Failure α).result answer firmware =
        rest.result answer (firmware.listed options map) := by
  rw [listed]
  cases options.saveMemoryMap with
  | true =>
    have saved := save_result viewed isOpen listingPath
    rw [writesEnd, letThrough, writable] at saved
    simp only [if_true]
    rw [Boot.atStep, Attempt.result_explain_bind_ok saved, Attempt.result_lift_bind, run_log]
  | false => rfl

theorem painting_result (mode : Mode) (rest : Attempt Failure α) :
    (do
      if options.paintScreen then
        Screen.paint mode Boot.paintValue
      rest : Attempt Failure α).result answer firmware =
        rest.result answer (firmware.painted options mode) := by
  rw [painted]
  cases options.paintScreen with
  | true =>
    simp only [if_true]
    rw [Attempt.result_lift_bind, Screen.paint, run_fill]
  | false => rfl

theorem Continues.listed (map : MemoryMap) : firmware.Continues (firmware.listed options map) := by
  rw [MemoryFirmware.listed]
  split <;> exact .mk _ _ _ _ _ _ rfl rfl

theorem Continues.painted (mode : Mode) : firmware.Continues (firmware.painted options mode) := by
  rw [MemoryFirmware.painted]
  split
  · exact .mk _ _ _ _ _ _ (Area.range_store _ _ _).1 (Area.range_store _ _ _).2
  · exact .mk _ _ _ _ _ _ rfl rfl

/-- Only the file that is created for a listing counts as a change of memory. -/
theorem key_listed (map : MemoryMap) :
    (firmware.listed options map).key = firmware.key ∨
      (firmware.listed options map).key = firmware.key + 1 := by
  rw [listed]
  split
  · exact .inr rfl
  · exact .inl rfl

@[simp] theorem key_painted (mode : Mode) : (firmware.painted options mode).key = firmware.key := by
  rw [painted]
  split <;> rfl

@[simp] theorem files_painted (mode : Mode) :
    (firmware.painted options mode).files = firmware.files := by
  rw [painted]
  split <;> rfl

@[simp] theorem graphics_listed (map : MemoryMap) :
    (firmware.listed options map).graphics = firmware.graphics := by
  rw [listed]
  split <;> rfl

@[simp] theorem physical_listed (map : MemoryMap) :
    (firmware.listed options map).physical = firmware.physical := by
  rw [listed]
  split <;> rfl

theorem listing_listed (map : MemoryMap) :
    (firmware.listed options map).files.volume.contents? listingPath =
      if options.saveMemoryMap then some (MemoryMap.Listing.texts map).flatten
      else firmware.files.volume.contents? listingPath := by
  rw [listed]
  split
  · exact (firmware.lists_save listingPath _).listing
  · rfl

theorem others_listed (map : MemoryMap) {path : String} (differs : path ≠ listingPath) :
    (firmware.listed options map).files.volume.contents? path =
      firmware.files.volume.contents? path := by
  rw [listed]
  split
  · exact (firmware.lists_save listingPath _).others path differs
  · rfl

end Diagnostics

theorem perm_erase_append (pool : List UInt64) (block : UInt64) :
    ((pool ++ [block]).erase block).Perm pool := by
  have front := (List.perm_append_singleton block pool).erase block
  rwa [List.erase_cons_head] at front

/-- Nothing keeps a boot attempt on the firmware from its end. -/
structure CanBoot (firmware : MemoryFirmware) (buffer : MemoryMap.Buffer) (mode : Mode)
    (file : Bytes) (kernel : Executable) (span : Span) (pages : Nat) : Prop where
  isOpen : firmware.exited = false
  mapFits : firmware.MapFits buffer
  writable : firmware.writesBeforeFailure = none
  visible : firmware.graphicsFailure = none
  screen : firmware.graphics = some mode
  kernel : firmware.CanLoad kernelPath file kernel span pages
  letsGo : firmware.exitFailures = []

/-- The firmware has a listing of its regions if one was wanted, and its other files as before. -/
structure Records (firmware : MemoryFirmware) (options : Options) (later : MemoryFirmware) :
    Prop where
  listing : later.files.volume.contents? listingPath =
    if options.saveMemoryMap then
      some (Bytes.utf8 MemoryMap.Listing.header
        :: MemoryMap.Listing.linesFrom 0 firmware.regions).flatten
    else firmware.files.volume.contents? listingPath
  others : ∀ path, path ≠ listingPath →
    later.files.volume.contents? path = firmware.files.volume.contents? path

/-- What a firmware went through by the time that the kernel's turn comes. -/
structure Prepared (firmware : MemoryFirmware) (options : Options) (later : MemoryFirmware) :
    Prop where
  continues : firmware.Continues later
  key : later.key = firmware.key + 1 ∨ later.key = firmware.key + 2
  records : firmware.Records options later

/-- What a firmware went through in an attempt that handed off. -/
structure HandedOff (firmware : MemoryFirmware) (options : Options) (span : Span) (pages : Nat)
    (later : MemoryFirmware) : Prop where
  exited : later.exited = true
  attempts : later.exitAttempts = firmware.exitAttempts ++ [firmware.key, later.key]
  pages : later.pageRequests = firmware.pageRequests ++ [(span.base, pages)]
  pool : later.pool.Perm firmware.pool
  records : firmware.Records options later

section Stages

variable {options : Options} {mode : Mode} {file : Bytes} {kernel : Executable} {span : Span}
  {pages : Nat} {frameBuffer : Screen.FrameBuffer}

/-- From the kernel on: by the time of the exit the key of the map is four calls old, or more. -/
theorem fromKernel_result (isOpen : firmware.exited = false)
    (can : firmware.CanLoad kernelPath file kernel span pages)
    (letsGo : firmware.exitFailures = []) (fits : firmware.MapFits map.buffer)
    (stale : map.report.key ≠ firmware.key + 4) :
    (Boot.fromKernel options map frameBuffer).result answer firmware =
      (.ok ⟨kernel.entry, frameBuffer, options.entryCall⟩,
        (firmware.loaded kernelPath file kernel span pages).leftAfter map.report.key) := by
  have openStill : (firmware.loaded kernelPath file kernel span pages).exited = false := by
    simpa [loaded, placed, reading] using isOpen
  have letsGoStill : (firmware.loaded kernelPath file kernel span pages).exitFailures = [] := by
    simpa [loaded, placed, reading] using letsGo
  have staleStill :
      map.report.key ≠ (firmware.loaded kernelPath file kernel span pages).key := by
    have moved : (firmware.loaded kernelPath file kernel span pages).key = firmware.key + 4 := by
      simp [loaded, placed, reading, UInt64.add_assoc]
    rw [moved]
    exact stale
  have fitsStill : (firmware.loaded kernelPath file kernel span pages).MapFits map.buffer := by
    apply fits.congr <;> simp [loaded, placed, reading]
  have left : (Boot.mapOrFail (Boot.leave map)).result answer
      (firmware.loaded kernelPath file kernel span pages) =
        (.ok ((firmware.loaded kernelPath file kernel span pages).charted map.buffer),
          (firmware.loaded kernelPath file kernel span pages).leftAfter map.report.key) := by
    rw [Boot.mapOrFail_result, leave_run openStill letsGoStill staleStill fitsStill]
    rfl
  rw [Boot.fromKernel, Boot.atStep, Attempt.result_explain_bind_ok (load_result isOpen can),
    Attempt.result_lift_bind, run_log, Attempt.result_lift_bind, run_log, Boot.atStep,
    Attempt.result_explain_bind_ok left, Attempt.result_pure]

theorem find_result (isOpen : firmware.exited = false) (visible : firmware.graphicsFailure = none)
    (shown : firmware.graphics = some mode) :
    Screen.find.result answer firmware = (.ok mode, firmware.tick) := by
  have found : Services.graphicsMode.run answer firmware = (.ok (some mode), firmware.tick) := by
    rw [run_graphicsMode isOpen, visible, shown]
  rw [Screen.find, Attempt.result_reply_bind_ok found]
  dsimp only
  rw [Attempt.result_lift_bind, run_log, Attempt.result_lift_bind, run_log, Attempt.result_pure]

/-- The screen is found by one call; it may be painted before the kernel's turn comes. -/
theorem fromScreen_result {order : ColourOrder} (isOpen : firmware.exited = false)
    (visible : firmware.graphicsFailure = none) (shown : firmware.graphics = some mode)
    (format : mode.format = order.format) :
    (Boot.fromScreen options map).result answer firmware =
      (Boot.fromKernel options map
        ⟨mode.base, mode.stride, mode.width, mode.height, order⟩).result answer
          (firmware.tick.painted options mode) := by
  have described : (Attempt.ofExcept (Screen.describe mode)).result answer firmware.tick =
      (.ok ⟨mode.base, mode.stride, mode.width, mode.height, order⟩, firmware.tick) := by
    rw [Attempt.result_ofExcept, Screen.describe_of_format format]
    rfl
  rw [Boot.fromScreen, Boot.atStep,
    Attempt.result_explain_bind_ok (find_result isOpen visible shown), Boot.atStep,
    Attempt.result_explain_bind_ok described]
  exact painting_result _ _ _ _

theorem prepare_result {order : ColourOrder}
    (can : firmware.CanBoot buffer mode file kernel span pages)
    (format : mode.format = order.format) (options : Options) :
    (Boot.prepare buffer options).result answer firmware =
      (Boot.fromKernel options (firmware.charted buffer)
        ⟨mode.base, mode.stride, mode.width, mode.height, order⟩).result answer
        ((firmware.asked.listed options (firmware.charted buffer)).tick.painted options mode) := by
  have took : (Boot.mapOrFail (MemoryMap.take buffer)).result answer firmware =
      (.ok (firmware.charted buffer), firmware.asked) := by
    have fits : firmware.MapFits (MemoryMap.blank buffer).buffer := can.mapFits
    rw [Boot.mapOrFail_result, MemoryMap.take, fits.retake_run can.isOpen]
    rfl
  have viewed := can.mapFits.sound.inspect can.mapFits.aligned
  obtain ⟨isOpen, shown, visible, _⟩ :=
    (Continues.listed firmware.asked options (firmware.charted buffer)).unchanged
  rw [Boot.prepare_eq, Boot.atStep, Attempt.result_explain_bind_ok took, Attempt.result_lift_bind,
    run_log, firmware.asked.listing_result options can.isOpen can.writable viewed]
  exact fromScreen_result (isOpen.trans can.isOpen) (visible.trans can.visible)
    (shown.trans can.screen) format

theorem prepared (fits : firmware.MapFits buffer) (options : Options) (mode : Mode) :
    firmware.Prepared options
      ((firmware.asked.listed options (firmware.charted buffer)).tick.painted options mode) where
  continues :=
    (((Continues.asked firmware).trans (.listed _ _ _)).trans (.tick _)).trans (.painted _ _ _)
  key := by
    rw [key_painted, tick_key]
    rcases firmware.asked.key_listed options (firmware.charted buffer) with key | key
    · exact .inl (congrArg (· + 1) key)
    · rw [key, UInt64.add_assoc]
      exact .inr rfl
  records :=
    { listing := by
        rw [files_painted, tick_files, listing_listed, fits.texts_charted]
        rfl
      others := fun path differs => by
        rw [files_painted, tick_files, others_listed _ _ _ differs]
        rfl }

theorem Prepared.handedOff (prepared : firmware.Prepared options later) :
    firmware.HandedOff options span pages
      ((later.loaded kernelPath file kernel span pages).leftAfter firmware.key) := by
  obtain ⟨_, _, _, _, attempts, requests, pool⟩ := prepared.continues.unchanged
  constructor
  case exited => rfl
  case attempts => simp [leftAfter, loaded, placed, reading, attempts]
  case pages => simp [leftAfter, loaded, placed, reading, requests]
  case pool =>
    simp only [leftAfter, loaded, placed, reading, left_pool, tried_pool, asked_pool,
      released_pool, changed_pool, claimed_pool, requested_pool, tick_pool, advanced_pool,
      lent_pool, opened_pool, pool]
    exact perm_erase_append _ _
  case records => exact ⟨prepared.records.listing, prepared.records.others⟩

/-- **A boot attempt with nothing in its way hands off**, whatever the firmware went through before.
The launch has the entry point of the kernel file and the mode of the screen. The firmware let go on
the second try, with its current key; it was asked for the pages of the kernel and no others, it has
its pool blocks back, and the listing of its regions if one was wanted. -/
theorem boot_hands_off {order : ColourOrder}
    (can : firmware.CanBoot buffer mode file kernel span pages)
    (format : mode.format = order.format) (options : Options) :
    ∃ elf later, Kernel.Elf.parse? file = some elf ∧
      (Boot.prepare buffer options).result answer firmware =
        (.ok ⟨elf.entry, ⟨mode.base, mode.stride, mode.width, mode.height, order⟩,
          options.entryCall⟩, later) ∧
      firmware.HandedOff options span pages later := by
  have started := prepare_result can format options
  have prepared := prepared can.mapFits options mode
  generalize (firmware.asked.listed options (firmware.charted buffer)).tick.painted options mode =
    ready at started prepared
  obtain ⟨isOpen, _, _, letsGo, _⟩ := prepared.continues.unchanged
  have present : ready.files.volume.contents? kernelPath = some file :=
    (prepared.records.others kernelPath (by decide)).trans can.kernel.present
  have loads := prepared.continues.canLoad can.kernel present
  have fits := prepared.continues.mapFits can.mapFits.again
  have stale : (firmware.charted buffer).report.key ≠ ready.key + 4 := by
    change firmware.key ≠ _
    rcases prepared.key with key | key <;> simp [key, UInt64.add_assoc]
  rw [fromKernel_result (isOpen.trans can.isOpen) loads (letsGo.trans can.letsGo) fits stale]
    at started
  obtain ⟨elf, reads⟩ := Executable.parse_reads can.kernel.fits.parsed
  rw [reads.entry_eq] at started
  exact ⟨elf, _, reads.elf_eq, started, prepared.handedOff⟩

end Stages

/-- A firmware that was in use before: a file is open, a block and pages are taken. -/
theorem boot_hands_off_again :
    let buffer : MemoryMap.Buffer := ⟨0x2000, List.replicate 96 0⟩
    let mode : Mode := ⟨0x80000000, 0x1000, 32, 32, 32, .bgr⟩
    let firmware : MemoryFirmware :=
      { regions := [⟨7, 0x1000, 0, 2, 0xf⟩, ⟨4, 0x3000, 0, 1, 0xf⟩]
        stride := 48
        key := 0x1009
        files := ⟨[(kernelPath, Kernel.overlapping), (listingPath, [1])], [⟨kernelPath, 7⟩]⟩
        pool := [blockAddress 0]
        blockCount := 1
        physical := ⟨0x100000, List.replicate 0x1800 0xcc⟩
        reserved := [(0x101000, 0x101800)]
        pageRequests := [(0x101000, 1)]
        graphics := some mode
        exitAttempts := [5] }
    firmware.CanBoot buffer mode Kernel.overlapping
        ⟨Kernel.overlapping, 0x100010, [⟨176, 0x100010, 6, 8⟩, ⟨182, 0x100014, 1, 2⟩]⟩
        ⟨0x100010, 0x100018⟩ 1 ∧
      mode.format = ColourOrder.bgr.format ∧
      ∃ later, (Boot.prepare buffer {}).result answer firmware =
          (.ok ⟨0x100010, ⟨0x80000000, 32, 32, 32, .bgr⟩, .withFrameBuffer⟩, later) ∧
        later.exited = true ∧ later.exitAttempts = [5, 0x1009, later.key] ∧
        later.pageRequests = [(0x101000, 1), (0x100000, 1)] ∧ later.pool.Perm [blockAddress 0] ∧
        later.files.volume.contents? listingPath = some (Bytes.utf8
          (MemoryMap.Listing.header ++ "0, 7, EfiConventionalMemory, 00001000, 2, f\n" ++
            "1, 4, EfiBootServicesData, 00003000, 1, f\n")) := by
  intro buffer mode firmware
  let kernel : Executable :=
    ⟨Kernel.overlapping, 0x100010, [⟨176, 0x100010, 6, 8⟩, ⟨182, 0x100014, 1, 2⟩]⟩
  let span : Span := ⟨0x100010, 0x100018⟩
  have parsed : Executable.parse Kernel.overlapping = .ok kernel := by cbv
  have fits : Fits Kernel.overlapping kernel span 1 := ⟨parsed, rfl, by decide +kernel⟩
  have limit : firmware.physical.limit = 0x101800 := by
    rw [Area.limit, List.length_replicate]
  have room : firmware.physical.HasRoom firmware.reserved span 1 :=
    { above := by decide
      below := by rw [limit]; decide
      bounded := by rw [limit]; decide
      apart := by decide }
  have can : firmware.CanBoot buffer mode Kernel.overlapping kernel span 1 :=
    { isOpen := rfl
      mapFits := ⟨rfl, by decide, by decide, by decide, by decide, by decide⟩
      writable := rfl
      visible := rfl
      screen := rfl
      kernel := ⟨by decide +kernel, fits, rfl, rfl, by decide +kernel, room⟩
      letsGo := rfl }
  have format : mode.format = ColourOrder.bgr.format := rfl
  obtain ⟨elf, later, accepted, ended, handedOff⟩ := boot_hands_off can format {}
  have entry :
      (Kernel.Elf.parse? Kernel.overlapping).map Kernel.Elf.File.entry = some 0x100010 := by
    decide +kernel
  rw [accepted] at entry
  rw [Option.some.inj entry] at ended
  have base : span.base = 0x100000 := by decide +kernel
  have pages := handedOff.pages
  rw [base] at pages
  refine ⟨can, format, later, ended, handedOff.exited, handedOff.attempts, pages, handedOff.pool,
    handedOff.records.listing.trans ?_⟩
  decide +kernel

end MemoryFirmware

end Testbed

end EfiLoader
