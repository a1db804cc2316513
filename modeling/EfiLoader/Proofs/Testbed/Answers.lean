import EfiLoader.Proofs.History
import EfiLoader.Testbed.MemoryFirmware
import Mathlib.Tactic.Simps.Basic

/-!
What firmware in memory answers before the exit, one equation for each request: the reply, and the
firmware after it.
-/

namespace EfiLoader.Testbed.MemoryFirmware

open Services (File)

variable {firmware : MemoryFirmware}

/-- The firmware once it allocated something: a key of before is out of date. -/
@[simps] def tick (firmware : MemoryFirmware) : MemoryFirmware :=
  { firmware with key := firmware.key + 1 }

/-- The firmware after a call for its map. -/
@[simps] def asked (firmware : MemoryFirmware) : MemoryFirmware :=
  { firmware with mapCalls := firmware.mapCalls + 1 }

/-- The firmware with a file open at its start. -/
@[simps] def opened (firmware : MemoryFirmware) (path : String) : MemoryFirmware :=
  { firmware.tick with files := (firmware.files.openAt path).2 }

/-- The firmware with an empty file at a path, open at its start. -/
@[simps] def created (firmware : MemoryFirmware) (path : String) : MemoryFirmware :=
  { firmware.tick with files := ((firmware.files.put path []).openAt path).2 }

/-- The firmware with another write to a file, which takes one from those that still succeed. -/
@[simps] def wrote (firmware : MemoryFirmware) (file : File) (data : Bytes) : MemoryFirmware :=
  { firmware with
    writesBeforeFailure := firmware.writesBeforeFailure.map fun (count, status) =>
      (count - 1, status)
    files := firmware.files.write file data }

/-- The firmware with bytes of a file read. -/
@[simps] def advanced (firmware : MemoryFirmware) (file : File) (count : Nat) : MemoryFirmware :=
  { firmware with files := firmware.files.advance file count }

/-- The firmware with one more pool block in use. -/
@[simps] def lent (firmware : MemoryFirmware) : MemoryFirmware :=
  { firmware.tick with
    pool := firmware.pool ++ [blockAddress firmware.blockCount]
    blockCount := firmware.blockCount + 1 }

@[simps] def released (firmware : MemoryFirmware) (block : UInt64) : MemoryFirmware :=
  { firmware.tick with pool := firmware.pool.erase block }

/-- The firmware once it was asked for pages, granted or not. -/
@[simps] def requested (firmware : MemoryFirmware) (address : UInt64) (count : Nat) :
    MemoryFirmware :=
  { firmware.tick with pageRequests := firmware.pageRequests ++ [(address, count)] }

/-- The firmware with a range taken. -/
@[simps] def claimed (firmware : MemoryFirmware) (first last : Nat) : MemoryFirmware :=
  { firmware with reserved := firmware.reserved ++ [(first, last)] }

/-- The firmware after a call for the exit, successful or not. -/
@[simps] def tried (firmware : MemoryFirmware) (key : UInt64) : MemoryFirmware :=
  { firmware with exitAttempts := firmware.exitAttempts ++ [key] }

@[simps] def left (firmware : MemoryFirmware) : MemoryFirmware := { firmware with exited := true }

/-- The firmware after a store to memory. -/
@[simps] def changed (firmware : MemoryFirmware) (change : Area → Area) : MemoryFirmware :=
  { firmware with physical := change firmware.physical, screen := firmware.screen.map change }

theorem run_fileSize (file : File) :
    (Services.fileSize file).run answer firmware =
      (.ok (.ofNat (firmware.files.whole file).length), firmware) := rfl

theorem run_readFile (file : File) (count : UInt64) :
    (Services.readFile file count).run answer firmware =
      if (firmware.files.whole file).length < (firmware.files.handle file).position then
        (.crash, firmware)
      else
        let data := (firmware.files.whole file).slice (firmware.files.handle file).position
          (min count.toNat (firmware.readLimit.getD count.toNat))
        (.ok ⟨.ofNat data.length, data⟩, firmware.advanced file data.length) := by
  change (readFile file count).run firmware = _
  rw [readFile]
  by_cases beyond : (firmware.files.whole file).length < (firmware.files.handle file).position
  · simp [beyond]
    rfl
  · simp [beyond, onFiles]
    rfl

theorem run_writeFile (file : File) (data : Bytes) :
    (Services.writeFile file data).run answer firmware =
      match firmware.writesBeforeFailure with
      | some (0, status) => (.fail status, firmware)
      | _ => (.ok (), firmware.wrote file data) := by
  change (writeFile file data).run firmware = _
  rw [writeFile]
  rcases left : firmware.writesBeforeFailure with _ | ⟨_ | count, status⟩
  all_goals
    simp [left, wrote]
    rfl

theorem run_closeFile (file : File) :
    (Services.closeFile file).run answer firmware = ((), firmware) := rfl

theorem run_store (address : UInt64) (data : Bytes) :
    (Services.store address data).run answer firmware =
      ((), firmware.changed (·.store address.toNat data)) := rfl

theorem run_fill (address count : UInt64) (value : UInt8) :
    (Services.fill address count value).run answer firmware =
      ((), firmware.changed (·.fill address.toNat count.toNat value)) := rfl

theorem run_log (level : Log.Level) (target text : String) :
    (Services.log level target text).run answer firmware = ((), firmware) := rfl

section BeforeExit

variable (isOpen : firmware.exited = false)

include isOpen

theorem run_memoryMap (buffer : Bytes) :
    (Services.memoryMap buffer).run answer firmware =
      let size := firmware.stride.toNat * firmware.regions.length
      match firmware.mapFailure with
      | some status => (⟨buffer, .fail status⟩, firmware.asked)
      | none =>
        if Kernel.wordLimit ≤ size then (⟨buffer, .crash⟩, firmware.asked)
        else if buffer.length < size then (⟨buffer, .fail .bufferTooSmall⟩, firmware.asked)
        else if firmware.stride = 0 then (⟨buffer, .crash⟩, firmware.asked)
        else
          let (buffer, outcome) := writeMap firmware.stride.toNat 0 firmware.regions buffer
          (⟨buffer, outcome.map fun () => ⟨.ofNat size, firmware.key, firmware.stride, 1⟩⟩,
            firmware.asked) := by
  change (memoryMap buffer).run firmware = _
  rw [memoryMap]
  cases failure : firmware.mapFailure with
  | some status =>
    simp [asked, isOpen, failure]
    rfl
  | none =>
    by_cases large : Kernel.wordLimit ≤ firmware.stride.toNat * firmware.regions.length
    · simp [asked, isOpen, failure, large]
      rfl
    by_cases tooSmall : buffer.length < firmware.stride.toNat * firmware.regions.length
    · simp [asked, isOpen, failure, large, tooSmall]
      rfl
    by_cases still : firmware.stride = 0
    all_goals
      simp [asked, isOpen, failure, large, tooSmall, still]
      rfl

theorem allocating_run {α : Type} (call : StateM MemoryFirmware (Outcome Status α)) :
    (allocating call).run firmware = call.run firmware.tick := by
  simp [allocating, isOpen, tick]

theorem run_openFile (path : String) :
    (Services.openFile path).run answer firmware =
      if firmware.files.contains path then
        (.ok firmware.files.handles.length, firmware.opened path)
      else (.fail .notFound, firmware.tick) := by
  change (openFile path).run firmware = _
  rw [openFile, allocating_run isOpen]
  cases found : firmware.files.contains path
  all_goals
    simp [found, onFiles]
    rfl

theorem run_createFile (path : String) :
    (Services.createFile path).run answer firmware =
      (.ok firmware.files.handles.length, firmware.created path) := by
  change (createFile path).run firmware = _
  rw [createFile, allocating_run isOpen]
  rfl

theorem run_allocatePool (size : UInt64) :
    (Services.allocatePool size).run answer firmware =
      match firmware.poolFailure with
      | some status => (.fail status, firmware.tick)
      | none =>
        if blockLimit < size.toNat then (.crash, firmware.tick)
        else
          (.ok ⟨blockAddress firmware.blockCount, List.replicate size.toNat 0xdd⟩,
            firmware.lent) := by
  change (allocatePool size).run firmware = _
  rw [allocatePool, allocating_run isOpen]
  cases failure : firmware.poolFailure with
  | some status =>
    simp [failure]
    rfl
  | none =>
    by_cases large : blockLimit < size.toNat
    all_goals
      simp [lent, tick, failure, large]
      rfl

theorem run_freePool (block : UInt64) :
    (Services.freePool block).run answer firmware =
      if block ∈ firmware.pool then (.ok (), firmware.released block)
      else (.fail .invalidParameter, firmware.tick) := by
  change (freePool block).run firmware = _
  rw [freePool, allocating_run isOpen]
  by_cases live : block ∈ firmware.pool
  all_goals
    simp [live]
    rfl

theorem run_allocatePages (address : UInt64) (count : Nat) :
    (Services.allocatePages address count).run answer firmware =
      let first := address.toNat
      let last := first + count * Kernel.pageSize
      let requested := firmware.requested address count
      if Kernel.wordLimit ≤ last then (.crash, requested)
      else if firmware.physical.isFree firmware.reserved first last then
        (.ok address, requested.claimed first last)
      else (.fail .notFound, requested) := by
  change (allocatePages address count).run firmware = _
  rw [allocatePages, allocating_run isOpen]
  by_cases large : Kernel.wordLimit ≤ address.toNat + count * Kernel.pageSize
  · simp [large]
    rfl
  · cases free : firmware.physical.isFree firmware.reserved address.toNat
      (address.toNat + count * Kernel.pageSize)
    all_goals
      simp [large, free]
      rfl

theorem run_graphicsMode :
    Services.graphicsMode.run answer firmware =
      (match firmware.graphicsFailure with
        | some status => .fail status
        | none => .ok firmware.graphics, firmware.tick) := by
  change graphicsMode.run firmware = _
  rw [graphicsMode, allocating_run isOpen]
  cases failure : firmware.graphicsFailure
  all_goals
    simp [failure]
    rfl

theorem run_exitBootServices (key : UInt64) :
    (Services.exitBootServices key).run answer firmware =
      match firmware.exitFailures with
      | status :: rest => (.fail status, { firmware.tried key with exitFailures := rest })
      | [] =>
        if key = firmware.key then (.ok (), (firmware.tried key).left)
        else (.fail .invalidParameter, firmware.tried key) := by
  change (exitBootServices key).run firmware = _
  rw [exitBootServices]
  cases failures : firmware.exitFailures with
  | cons status rest =>
    simp [tried, isOpen, failures]
    rfl
  | nil =>
    by_cases same : key = firmware.key
    all_goals
      simp [tried, left, isOpen, failures, same]
      rfl

end BeforeExit

end EfiLoader.Testbed.MemoryFirmware
