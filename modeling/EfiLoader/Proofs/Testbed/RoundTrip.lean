import EfiLoader.Proofs.Testbed.Charting

/-!
The regions of firmware in memory, taken as a snapshot and viewed again. Main statement: with room
for all of them the view has exactly the regions and the snapshot the current key
(`snapshot_reads_back`); without it the buffer stays as it was.
-/

namespace EfiLoader.Testbed.MemoryFirmware

open MemoryMap (Buffer Descriptor)

variable {firmware : MemoryFirmware} {buffer : Buffer}

/-- Bytes of the firmware's map. -/
def mapSize (firmware : MemoryFirmware) : Nat :=
  firmware.stride.toNat * firmware.regions.length

/-- The map shows what the firmware has: its regions, none of them virtually mapped. -/
structure ShownBy (firmware : MemoryFirmware) (map : MemoryMap) : Prop where
  entries : map.inspect = .ok (firmware.regions.map Descriptor.unmapped)
  counted : map.length = firmware.regions.length
  current : map.report.key = firmware.key

theorem MapFits.shown (fits : firmware.MapFits buffer) :
    firmware.ShownBy (firmware.charted buffer) where
  entries := by
    have aligned : (firmware.charted buffer).buffer.IsAligned := fits.aligned
    rw [fits.sound.inspect aligned, fits.descriptors_charted]
  counted := fits.length_charted
  current := rfl

/-- What the firmware replies when its map is longer than the buffer. -/
theorem run_memoryMap_of_short (isOpen : firmware.exited = false)
    (noFailure : firmware.mapFailure = none) {bytes : Bytes}
    (short : bytes.length < firmware.mapSize) :
    (Services.memoryMap bytes).run answer firmware =
      (⟨bytes, .error
        (if firmware.mapSize < Kernel.wordLimit then .failed .bufferTooSmall else .crashed)⟩,
        firmware.asked) := by
  have short' : bytes.length < firmware.stride.toNat * firmware.regions.length := short
  rw [run_memoryMap isOpen, noFailure]
  by_cases within : firmware.mapSize < Kernel.wordLimit
  · have small : ¬ Kernel.wordLimit ≤ firmware.stride.toNat * firmware.regions.length :=
      Nat.not_le.mpr within
    rw [if_pos within]
    simp only [if_neg small, if_pos short']
    rfl
  · have large : Kernel.wordLimit ≤ firmware.stride.toNat * firmware.regions.length :=
      Nat.not_lt.mp within
    rw [if_neg within]
    simp only [if_pos large]
    rfl

/-- A call that fails and writes nothing leaves no more than its failure. -/
theorem take_of_error {stop : Stop Status} {later : MemoryFirmware}
    (room : buffer.bytes ≠ [])
    (replied : (Services.memoryMap buffer.bytes).run answer firmware =
      (⟨buffer.bytes, .error stop⟩, later)) :
    (MemoryMap.take buffer).run answer firmware =
      ((.blank buffer, .error (stop.map MemoryMap.failedCall)), later) := by
  have roomy : (MemoryMap.blank buffer).buffer.bytes ≠ [] := room
  have same : buffer.bytes.overlay 0 buffer.bytes = buffer.bytes := Bytes.overlay_whole rfl
  rw [MemoryMap.take, MemoryMap.retake]
  simp only [if_neg roomy]
  rw [Program.run_bind_state, MemoryMap.blank, replied]
  simp only [same]
  cases stop <;> rfl

/-- **Regions come back from a snapshot as they are**, whatever their number, whatever the stride
that has room for a descriptor, and whatever the buffer held. In a buffer that is too short for them
nothing is written, and that is told as long as their size is a number of the machine; a size past
its words is a crash instead. -/
theorem snapshot_reads_back (isOpen : firmware.exited = false)
    (noFailure : firmware.mapFailure = none)
    (wide : Descriptor.size ≤ firmware.stride.toNat) (aligned : buffer.IsAligned)
    (room : buffer.bytes ≠ []) (bounded : buffer.bytes.length < Kernel.wordLimit) :
    let run := (MemoryMap.take buffer).run answer firmware
    (firmware.mapSize ≤ buffer.bytes.length →
      run.1.2 = .ok () ∧ firmware.ShownBy run.1.1 ∧ run.2.key = firmware.key) ∧
    (buffer.bytes.length < firmware.mapSize →
      run.1.1.buffer = buffer ∧
      run.1.2 = if firmware.mapSize < Kernel.wordLimit then .fail .bufferTooSmall else .crash) := by
  intro run
  constructor
  · intro fits
    have mapFits : firmware.MapFits buffer := ⟨noFailure, aligned, room, wide, fits, bounded⟩
    have blankFits : firmware.MapFits (MemoryMap.blank buffer).buffer := mapFits
    have took : run = ((firmware.charted buffer, .ok ()), firmware.asked) :=
      blankFits.retake_run isOpen
    rw [took]
    exact ⟨rfl, mapFits.shown, rfl⟩
  · intro short
    have took : run = _ := take_of_error room (run_memoryMap_of_short isOpen noFailure short)
    rw [took]
    refine ⟨rfl, ?_⟩
    by_cases within : firmware.mapSize < Kernel.wordLimit
    · simp only [if_pos within]
      rfl
    · simp only [if_neg within]
      rfl

/-- Two regions half the address space apart. -/
theorem snapshot_reads_back_sparse :
    let regions : List Descriptor := [⟨7, 0x1000, 0, 2, 0xf⟩, ⟨4, 0x3000, 0, 1, 0xf⟩]
    let firmware : MemoryFirmware := { regions, stride := 0x8000000000000000 }
    let buffer : Buffer := ⟨0x2000, List.replicate 96 0xa5⟩
    let run := (MemoryMap.take buffer).run answer firmware
    firmware.exited = false ∧ firmware.mapFailure = none ∧
      Descriptor.size ≤ firmware.stride.toNat ∧ buffer.IsAligned ∧ buffer.bytes ≠ [] ∧
      buffer.bytes.length < Kernel.wordLimit ∧ buffer.bytes.length < firmware.mapSize ∧
      run.1.1.buffer = buffer ∧ run.1.2 = .crash := by
  intro regions firmware buffer run
  have isOpen : firmware.exited = false := rfl
  have noFailure : firmware.mapFailure = none := rfl
  have wide : Descriptor.size ≤ firmware.stride.toNat := by decide
  have aligned : buffer.IsAligned := by decide
  have room : buffer.bytes ≠ [] := by decide
  have bounded : buffer.bytes.length < Kernel.wordLimit := by decide
  have short : buffer.bytes.length < firmware.mapSize := by decide +kernel
  have past : ¬ firmware.mapSize < Kernel.wordLimit := by decide +kernel
  obtain ⟨kept, ended⟩ :=
    (snapshot_reads_back isOpen noFailure wide aligned room bounded).2 short
  rw [if_neg past] at ended
  have ran : run = (MemoryMap.take buffer).run answer firmware := rfl
  rw [ran]
  exact ⟨isOpen, noFailure, wide, aligned, room, bounded, short, kept, ended⟩

end EfiLoader.Testbed.MemoryFirmware
