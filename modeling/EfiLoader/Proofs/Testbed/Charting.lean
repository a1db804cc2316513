import EfiLoader.Proofs.Kernel.Placement
import EfiLoader.Proofs.MemoryMap.Layout
import EfiLoader.Proofs.Testbed.Recording
import Mathlib.Data.List.TakeWhile

/-!
The map of firmware in memory: its regions, laid out at its stride. A buffer with room for them is
accepted as it comes back (`retake_run`), and what is read from it are the regions again
(`descriptors_charted`).
-/

namespace EfiLoader

namespace MemoryMap

/-- The descriptor without a virtual address, as a firmware gives it before the exit. -/
def Descriptor.unmapped (d : Descriptor) : Descriptor := { d with virtualStart := 0 }

/-- Listings say nothing of virtual addresses. -/
theorem Listing.linesFrom_unmapped (index : Nat) (ds : List Descriptor) :
    linesFrom index (ds.map Descriptor.unmapped) = linesFrom index ds := by
  induction ds generalizing index with
  | nil => rfl
  | cons d rest ih => rw [List.map_cons, linesFrom, linesFrom, ih]; rfl

end MemoryMap

namespace Testbed.MemoryFirmware

open Boot (Cause)
open MemoryMap (Descriptor)

variable {firmware : MemoryFirmware}

theorem overlay_fields (buffer : Bytes) (offset : Nat) (d : Descriptor) :
    (fields d).foldl (fun buffer field => buffer.overlay (offset + field.1) field.2) buffer =
      buffer.overlay offset d.unmapped.toBytes := by
  have type : Bytes.ofNatLE 8 d.type.toNat = Bytes.ofNatLE 4 d.type.toNat ++ Bytes.ofNatLE 4 0 := by
    rw [Bytes.ofNatLE_add 4 4, Nat.div_eq_of_lt d.type.toNat_lt]
  simp only [fields, List.foldl_cons, List.foldl_nil, Nat.add_zero]
  rw [Bytes.overlay_append (Bytes.length_ofNatLE 4 _), Bytes.overlay_append (by simp),
    Bytes.overlay_append (by simp), Bytes.overlay_append (by simp),
    Bytes.overlay_append (by simp)]
  simp [Descriptor.toBytes, Descriptor.unmapped, type]

theorem writeMap_eq_layOut {stride : Nat} (wide : Descriptor.size ≤ stride) (offset : Nat)
    (ds : List Descriptor) (buffer : Bytes) :
    writeMap stride offset ds buffer =
      (Descriptor.layOut stride offset (ds.map Descriptor.unmapped) buffer, .ok ()) := by
  induction ds generalizing offset buffer with
  | nil => rfl
  | cons d rest ih =>
    have all :
        (fields d).takeWhile (fun field => field.1 + field.2.length ≤ stride) = fields d := by
      rw [Descriptor.size] at wide
      rw [List.takeWhile_eq_self_iff]
      simp [fields]
      omega
    simp only [writeMap, all, overlay_fields, if_neg (Nat.not_lt.mpr wide), ih, List.map_cons,
      Descriptor.layOut]
    rw [List.take_of_length_le (by rw [Descriptor.length_toBytes]; exact wide)]

/-- The firmware's map has room in the buffer, and can be taken. -/
structure MapFits (firmware : MemoryFirmware) (buffer : MemoryMap.Buffer) : Prop where
  noFailure : firmware.mapFailure = none
  aligned : buffer.IsAligned
  room : buffer.bytes ≠ []
  wide : Descriptor.size ≤ firmware.stride.toNat
  fits : firmware.stride.toNat * firmware.regions.length ≤ buffer.bytes.length
  bounded : buffer.bytes.length < Kernel.wordLimit

/-- The map that the firmware gives for a buffer. -/
def charted (firmware : MemoryFirmware) (buffer : MemoryMap.Buffer) : MemoryMap where
  buffer :=
    { buffer with
      bytes := Descriptor.layOut firmware.stride.toNat 0
        (firmware.regions.map Descriptor.unmapped) buffer.bytes }
  report :=
    { size := .ofNat (firmware.stride.toNat * firmware.regions.length)
      key := firmware.key
      stride := firmware.stride
      version := 1 }

namespace MapFits

variable {buffer : MemoryMap.Buffer}

/-- Only the regions and their stride matter. -/
theorem congr {later : MemoryFirmware} (fits : firmware.MapFits buffer)
    (failure : later.mapFailure = firmware.mapFailure) (stride : later.stride = firmware.stride)
    (regions : later.regions = firmware.regions) : later.MapFits buffer where
  noFailure := failure.trans fits.noFailure
  aligned := fits.aligned
  room := fits.room
  wide := stride ▸ fits.wide
  fits := by
    rw [stride, regions]
    exact fits.fits
  bounded := fits.bounded

theorem toNat_size (fits : firmware.MapFits buffer) :
    (firmware.charted buffer).report.size.toNat =
      firmware.stride.toNat * firmware.regions.length :=
  UInt64.toNat_ofNat_of_lt' (Nat.lt_of_le_of_lt fits.fits fits.bounded)

theorem sound (fits : firmware.MapFits buffer) :
    MemoryMap.Sound (firmware.charted buffer).buffer.bytes.length
      (firmware.charted buffer).report where
  wide := fits.wide
  fits := by
    rw [fits.toNat_size, charted, Descriptor.length_layOut]
    exact fits.fits
  whole := by
    rw [fits.toNat_size]
    exact Nat.dvd_mul_right _ _

theorem run_memoryMap (fits : firmware.MapFits buffer) (isOpen : firmware.exited = false) :
    (Services.memoryMap buffer.bytes).run answer firmware =
      (⟨(firmware.charted buffer).buffer.bytes, .ok (firmware.charted buffer).report⟩,
        firmware.asked) := by
  have large : ¬ Kernel.wordLimit ≤ firmware.stride.toNat * firmware.regions.length :=
    Nat.not_le.mpr (Nat.lt_of_le_of_lt fits.fits fits.bounded)
  have still : firmware.stride ≠ 0 := by
    intro zero
    have wide := fits.wide
    rw [zero] at wide
    exact absurd wide (by decide)
  rw [MemoryFirmware.run_memoryMap isOpen]
  simp only [fits.noFailure, if_neg large, if_neg (Nat.not_lt.mpr fits.fits), if_neg still,
    writeMap_eq_layOut fits.wide]
  rfl

/-- A map that fits is accepted, into whatever was in the buffer. -/
theorem retake_run {map : MemoryMap} (fits : firmware.MapFits map.buffer)
    (isOpen : firmware.exited = false) :
    map.retake.run answer firmware =
      ((firmware.charted map.buffer, .ok ()), firmware.asked) := by
  have filled : { map.buffer with
      bytes := map.buffer.bytes.overlay 0 (firmware.charted map.buffer).buffer.bytes } =
        (firmware.charted map.buffer).buffer := by
    rw [Bytes.overlay_whole (by rw [charted, Descriptor.length_layOut])]
    rfl
  have aligned : (firmware.charted map.buffer).buffer.IsAligned := fits.aligned
  have accepted := MemoryMap.accept_of_sound aligned fits.sound
  rw [MemoryMap.retake]
  simp only [if_neg fits.room]
  rw [Program.run_bind_state, fits.run_memoryMap isOpen]
  simp only [filled, accepted]
  rfl

theorem length_charted (fits : firmware.MapFits buffer) :
    (firmware.charted buffer).length = firmware.regions.length := by
  have moves : 0 < firmware.stride.toNat := Nat.lt_of_lt_of_le (by decide) fits.wide
  rw [MemoryMap.length, fits.toNat_size]
  exact Nat.mul_div_cancel_left _ moves

/-- The map can be taken again into the buffer that it came in. -/
theorem again (fits : firmware.MapFits buffer) :
    firmware.MapFits (firmware.charted buffer).buffer where
  noFailure := fits.noFailure
  aligned := fits.aligned
  room := by
    intro empty
    have length := congrArg List.length empty
    rw [charted, Descriptor.length_layOut] at length
    exact fits.room (List.length_eq_zero_iff.mp length)
  wide := fits.wide
  fits := by
    rw [charted, Descriptor.length_layOut]
    exact fits.fits
  bounded := by
    rw [charted, Descriptor.length_layOut]
    exact fits.bounded

/-- The regions are read back from their places. -/
theorem descriptors_charted (fits : firmware.MapFits buffer) :
    (firmware.charted buffer).descriptors = firmware.regions.map Descriptor.unmapped := by
  rw [MemoryMap.descriptors, fits.length_charted]
  apply List.ext_getElem (by simp)
  intro i _ counted
  rw [List.length_map] at counted
  have found : (firmware.regions.map Descriptor.unmapped)[i]? =
      some firmware.regions[i].unmapped := by
    rw [List.getElem?_map, List.getElem?_eq_getElem counted]
    rfl
  have room : 0 + i * firmware.stride.toNat + Descriptor.size ≤ buffer.bytes.length := by
    have next : (i + 1) * firmware.stride.toNat ≤ firmware.regions.length * firmware.stride.toNat :=
      Nat.mul_le_mul_right _ counted
    have wide := fits.wide
    have inside := fits.fits
    rw [Nat.mul_comm] at inside
    rw [Nat.succ_mul] at next
    omega
  have read := Descriptor.read_layOut fits.wide found room
  rw [Nat.zero_add] at read
  rw [List.getElem_map, List.getElem_range, List.getElem_map]
  exact read

/-- The listing of the map is that of the regions. -/
theorem texts_charted (fits : firmware.MapFits buffer) :
    MemoryMap.Listing.texts (firmware.charted buffer) =
      Bytes.utf8 MemoryMap.Listing.header :: MemoryMap.Listing.linesFrom 0 firmware.regions := by
  rw [MemoryMap.Listing.texts, MemoryMap.Listing.lines, fits.descriptors_charted,
    MemoryMap.Listing.linesFrom_unmapped]

end MapFits

end Testbed.MemoryFirmware
end EfiLoader
