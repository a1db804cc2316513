import EfiLoader.Proofs.Execution
import EfiLoader.Proofs.Kernel.Placement
import EfiLoader.Proofs.Testbed.Answers
import EfiLoader.Proofs.Testbed.Files

/-!
Loading a kernel on firmware in memory. Once its file can be read, a load ends as the placing does
(`load_of_placeFile`); with room for the kernel each part succeeds, and what it leaves behind is
given in full (`load_result`).
-/

namespace EfiLoader.Testbed

open Boot (Cause)
open Kernel (Executable Loaded Segment Span Staged)
open Services (File)

/-- The area with the segments of a kernel stored, `base` of its memory at that very address. -/
def Area.storeSegments (area : Area) (file : Bytes) (base : UInt64) (segments : List Segment) :
    Area :=
  segments.foldl
    (fun area s =>
      area.store (base + .ofNat (s.address.toNat - base.toNat)).toNat (s.contents file))
    area

theorem Area.range_store (area : Area) (address : Nat) (data : Bytes) :
    (area.store address data).base = area.base ∧
      (area.store address data).limit = area.limit := by
  unfold Area.store
  split <;> simp [Area.limit]

/-- The range from `first` up to `last` starts with a page and lies in the area. -/
structure Area.HasPages (area : Area) (first last : Nat) : Prop where
  aligned : first % Kernel.pageSize = 0
  above : area.base ≤ first
  below : last ≤ area.limit

theorem Area.isFree_iff {area : Area} {taken : List (Nat × Nat)} {first last : Nat} :
    area.isFree taken first last = true ↔
      area.HasPages first last ∧ ∀ range ∈ taken, ¬ (first < range.2 ∧ range.1 < last) := by
  constructor
  · intro free
    obtain ⟨aligned, above, below, unmet⟩ : _ ∧ _ ∧ _ ∧ _ := by simpa [isFree] using free
    exact ⟨⟨aligned, above, below⟩, by simpa using unmet⟩
  · rintro ⟨⟨aligned, above, below⟩, unmet⟩
    simpa [isFree, aligned, above, below] using unmet

/-- Nothing is in the way of a kernel of that span. -/
structure Area.HasRoom (area : Area) (taken : List (Nat × Nat)) (span : Span) (pages : Nat) :
    Prop where
  above : area.base ≤ span.base.toNat
  below : span.base.toNat + pages * Kernel.pageSize ≤ area.limit
  bounded : area.limit < Kernel.wordLimit
  apart : ∀ range ∈ taken,
    ¬ (span.base.toNat < range.2 ∧ range.1 < span.base.toNat + pages * Kernel.pageSize)

theorem Area.HasRoom.isFree {area : Area} {taken : List (Nat × Nat)} {span : Span} {pages : Nat}
    (room : area.HasRoom taken span pages) :
    area.isFree taken span.base.toNat (span.base.toNat + pages * Kernel.pageSize) = true := by
  have aligned : span.base.toNat % Kernel.pageSize = 0 := by
    rw [Span.toNat_base]
    exact Nat.mul_mod_left _ _
  exact Area.isFree_iff.mpr ⟨⟨aligned, room.above, room.below⟩, room.apart⟩

namespace MemoryFirmware

theorem changed_changed (firmware : MemoryFirmware) (first second : Area → Area) :
    (firmware.changed first).changed second = firmware.changed fun area => second (first area) := by
  simp [changed, Function.comp_def]

theorem changed_id (firmware : MemoryFirmware) :
    (firmware.changed fun area => area) = firmware := by
  simp [changed]

variable {firmware : MemoryFirmware} {number : File} {path : String} {file : Bytes}

theorem readFile_whole (opened : firmware.files.Opened number path 0)
    (present : firmware.files.volume.contents? path = some file)
    (roomy : ∀ limit ∈ firmware.readLimit, file.length ≤ limit)
    (bounded : file.length < Kernel.wordLimit) :
    (Services.readFile number (.ofNat file.length)).run answer firmware =
      (.ok ⟨.ofNat file.length, file⟩, firmware.advanced number file.length) := by
  have contents : firmware.files.contents path = file := by
    rw [FileTable.contents, present]
    rfl
  have size : (UInt64.ofNat file.length).toNat = file.length := UInt64.toNat_ofNat_of_lt' bounded
  have start : ¬ (firmware.files.contents path).length < 0 := Nat.not_lt_zero _
  have read : min file.length (firmware.readLimit.getD file.length) = file.length := by
    cases limited : firmware.readLimit with
    | none => exact Nat.min_self _
    | some limit => exact Nat.min_eq_left (roomy limit limited)
  have all : file.slice 0 file.length = file := by
    rw [Bytes.slice, List.drop_zero, List.take_length]
  rw [run_readFile, opened.whole, opened.handle, if_neg start, size, read, contents, all]

/-- The file at a path can be read as a whole into a new block. -/
structure CanStage (firmware : MemoryFirmware) (path : String) (file : Bytes) : Prop where
  present : firmware.files.volume.contents? path = some file
  roomy : ∀ limit ∈ firmware.readLimit, file.length ≤ limit
  granted : firmware.poolFailure = none
  bounded : file.length ≤ blockLimit

theorem stage_result (isOpen : firmware.exited = false)
    (opened : firmware.files.Opened number path 0) (can : firmware.CanStage path file) :
    (Kernel.stage number).result answer firmware =
      (.ok ⟨blockAddress firmware.blockCount, file⟩,
        firmware.lent.advanced number file.length) := by
  have small : file.length < Kernel.wordLimit := Nat.lt_of_le_of_lt can.bounded (by decide)
  have size : (UInt64.ofNat file.length).toNat = file.length := UInt64.toNat_ofNat_of_lt' small
  have sized : (Services.fileSize number).run answer firmware =
      (.ok (.ofNat file.length), firmware) := by
    rw [run_fileSize, opened.whole, FileTable.contents, can.present]
    rfl
  have allocated : (Services.allocatePool (.ofNat file.length)).run answer firmware =
      (.ok ⟨blockAddress firmware.blockCount, List.replicate file.length 0xdd⟩, firmware.lent) := by
    rw [run_allocatePool isOpen, can.granted, size]
    exact if_neg (Nat.not_lt.mpr can.bounded)
  have read := @readFile_whole firmware.lent number path file opened can.present can.roomy small
  rw [Kernel.stage, Attempt.result_require_bind_ok sized, Attempt.result_reply_bind_ok allocated]
  dsimp only
  rw [Attempt.result_reply_bind_ok read]
  dsimp only
  rw [if_pos rfl, Attempt.result_pure]
  have filled : Kernel.fillBlock (.ofNat file.length)
      ⟨blockAddress firmware.blockCount, List.replicate file.length 0xdd⟩ file = file :=
    Kernel.fillBlock_of_length size
  rw [Kernel.fillBlock] at filled
  rw [filled]

theorem storeSegments_result {base : UInt64} {size : Nat} {segments : List Segment}
    (places : ∀ s ∈ segments, s.store? file base size =
      some (s.address.toNat - base.toNat, s.contents file)) :
    (Kernel.storeSegments file base base size segments).result answer firmware =
      (.ok (), firmware.changed (·.storeSegments file base segments)) := by
  induction segments generalizing firmware with
  | nil => exact congrArg _ firmware.changed_id.symm
  | cons s rest ih =>
    rw [Kernel.storeSegments, places s List.mem_cons_self]
    dsimp only
    rw [Attempt.result_lift_bind, run_store, ih fun t ht => places t (List.mem_cons_of_mem s ht),
      changed_changed]
    rfl

theorem run_allocatePages_of_room {span : Span} {pages : Nat} (isOpen : firmware.exited = false)
    (room : firmware.physical.HasRoom firmware.reserved span pages) :
    (Services.allocatePages span.base pages).run answer firmware =
      (.ok span.base, (firmware.requested span.base pages).claimed span.base.toNat
        (span.base.toNat + pages * Kernel.pageSize)) := by
  have small : ¬ Kernel.wordLimit ≤ span.base.toNat + pages * Kernel.pageSize :=
    Nat.not_le.mpr (Nat.lt_of_le_of_lt room.below room.bounded)
  rw [run_allocatePages isOpen]
  simp only [if_neg small, room.isFree, if_true]

/-- The firmware with a kernel in its pages. -/
def placed (firmware : MemoryFirmware) (file : Bytes) (kernel : Executable) (span : Span)
    (pages : Nat) : MemoryFirmware :=
  ((firmware.requested span.base pages).claimed span.base.toNat
    (span.base.toNat + pages * Kernel.pageSize)).changed
      (·.storeSegments file span.base kernel.segments)

theorem placeFile_result {kernel : Executable} {span : Span} {pages : Nat}
    (isOpen : firmware.exited = false) (fits : Kernel.Fits file kernel span pages)
    (room : firmware.physical.HasRoom firmware.reserved span pages) :
    (Kernel.placeFile file).result answer firmware =
      (.ok ⟨kernel.entry, span⟩, firmware.placed file kernel span pages) := by
  have bounded : ¬ Kernel.wordLimit ≤ pages * Kernel.pageSize := by
    have below := room.below
    have limit := room.bounded
    omega
  unfold Kernel.placeFile
  simp only [fits.parsed, fits.spanned, fits.counted, Outcome.mapError_ok,
    Attempt.ofExcept_ok_bind, Attempt.ofOutcome_ok_bind]
  rw [Attempt.result_reply_bind_ok (run_allocatePages_of_room isOpen room)]
  simp only [if_neg bounded]
  rw [Attempt.result_bind_ok (storeSegments_result fits.store?), Services.log,
    Attempt.result_lift_bind]
  rfl

/-- The file at a path is a kernel that can be loaded. -/
structure CanLoad (firmware : MemoryFirmware) (path : String) (file : Bytes) (kernel : Executable)
    (span : Span) (pages : Nat) : Prop where
  present : firmware.files.volume.contents? path = some file
  fits : Kernel.Fits file kernel span pages
  unlimited : firmware.readLimit = none
  granted : firmware.poolFailure = none
  bounded : file.length ≤ blockLimit
  room : firmware.physical.HasRoom firmware.reserved span pages

theorem CanLoad.canStage {kernel : Executable} {span : Span} {pages : Nat}
    (can : firmware.CanLoad path file kernel span pages) : firmware.CanStage path file :=
  ⟨can.present, by simp [can.unlimited], can.granted, can.bounded⟩

/-- The firmware with that many bytes of a file read into a new pool block. -/
def reading (firmware : MemoryFirmware) (path : String) (count : Nat) : MemoryFirmware :=
  (firmware.opened path).lent.advanced firmware.files.handles.length count

/-- The firmware with a kernel loaded from a path, the block that held its file released. -/
def loaded (firmware : MemoryFirmware) (path : String) (file : Bytes)
    (kernel : Executable) (span : Span) (pages : Nat) : MemoryFirmware :=
  ((firmware.reading path file.length).placed file kernel span pages).released
    (blockAddress firmware.blockCount)

/-- A load ends as the placing does, with the block released unless that crashed. -/
theorem load_of_placeFile {placed : Outcome Cause Loaded} {later : MemoryFirmware}
    (isOpen : firmware.exited = false) (can : firmware.CanStage path file)
    (placing : (Kernel.placeFile file).result answer (firmware.reading path file.length) =
      (placed, later))
    (openStill : later.exited = false)
    (pool : later.pool = (firmware.reading path file.length).pool) :
    (Kernel.load path).result answer firmware =
      (placed, if placed = .crash then later
        else later.released (blockAddress firmware.blockCount)) := by
  have opened : (Services.openFile path).run answer firmware =
      (.ok firmware.files.handles.length, firmware.opened path) := by
    have found : firmware.files.contains path = true := by
      rw [FileTable.contains, can.present]
      rfl
    rw [run_openFile isOpen, if_pos found]
  have staged : (Kernel.stage firmware.files.handles.length).result answer (firmware.opened path) =
      (.ok ⟨blockAddress firmware.blockCount, file⟩, firmware.reading path file.length) :=
    stage_result isOpen (FileTable.opened_openAt firmware.files path)
      ⟨can.present, can.roomy, can.granted, can.bounded⟩
  have released : (Services.freePool (blockAddress firmware.blockCount)).run answer later =
      (.ok (), later.released (blockAddress firmware.blockCount)) := by
    have live : blockAddress firmware.blockCount ∈ later.pool := by simp [pool, reading]
    rw [run_freePool openStill, if_pos live]
  rw [Kernel.load, Attempt.result_reply_bind_ok opened]
  dsimp only
  rw [Attempt.result_settle_bind_ok staged, Attempt.result_lift_bind, run_closeFile,
    Attempt.ofExcept_ok_bind]
  rcases placed with (cause | _) | loaded
  · rw [Attempt.result_settle_bind_failed placing, Attempt.result_reply_bind_ok released]
    rfl
  · rw [Attempt.result_settle_bind_crash placing]
    rfl
  · rw [Attempt.result_settle_bind_ok placing, Attempt.result_reply_bind_ok released,
      Attempt.ofExcept_ok_bind]
    rfl

theorem load_result {kernel : Executable} {span : Span} {pages : Nat}
    (isOpen : firmware.exited = false) (can : firmware.CanLoad path file kernel span pages) :
    (Kernel.load path).result answer firmware =
      (.ok ⟨kernel.entry, span⟩, firmware.loaded path file kernel span pages) := by
  have openStill : (firmware.reading path file.length).exited = false := by
    simpa [reading] using isOpen
  have room : (firmware.reading path file.length).physical.HasRoom
      (firmware.reading path file.length).reserved span pages := by
    simpa [reading] using can.room
  exact load_of_placeFile isOpen can.canStage (placeFile_result openStill can.fits room)
    (by simpa [placed] using openStill) (by simp [placed])

end MemoryFirmware

end EfiLoader.Testbed
