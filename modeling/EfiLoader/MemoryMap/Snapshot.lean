import EfiLoader.Attempt
import EfiLoader.Boot.Cause
import EfiLoader.MemoryMap.Descriptor

/-!
Snapshots of the memory map in a buffer of the caller. A snapshot is described by the last report of
the firmware that could be accepted; one that could not be may still have changed the buffer.
-/

namespace EfiLoader

open Boot (Cause)
open Services (MapReport)

namespace MemoryMap

/-- Memory for a map: where it starts, and its bytes. -/
structure Buffer where
  address : UInt64
  bytes : Bytes
  deriving DecidableEq, Repr

namespace Buffer

def IsAligned (buffer : Buffer) : Prop := buffer.address % 8 = 0

instance (buffer : Buffer) : Decidable buffer.IsAligned := inferInstanceAs (Decidable (_ = _))

/-- The reported descriptors can be reached: the buffer is aligned and holds them. A crash if the
reported sizes do not divide. -/
def reach (buffer : Buffer) (report : MapReport) : Outcome Status Unit :=
  if ¬ buffer.IsAligned ∨ buffer.bytes.length < report.size.toNat then .fail .invalidParameter
  else if report.stride = 0 ∨ report.size % report.stride ≠ 0 then .crash
  else .ok ()

end Buffer

end MemoryMap

structure MemoryMap where
  buffer : MemoryMap.Buffer
  report : MapReport
  deriving DecidableEq, Repr

namespace MemoryMap

/-- A map in a buffer that no reply has filled yet. -/
def blank (buffer : Buffer) : MemoryMap := ⟨buffer, ⟨0, 0, .ofNat Descriptor.size, 0⟩⟩

def failedCall (status : Status) : Cause :=
  if status = .bufferTooSmall then .bufferTooSmall else .memoryMap status

/-- What a reply amounts to, for the buffer that it left behind. -/
def accept (buffer : Buffer) (outcome : Outcome Status MapReport) : Outcome Cause MapReport := do
  let report ← outcome.explain failedCall
  if report.stride.toNat < Descriptor.size then .fail (.memoryMap .invalidParameter)
  else
    (buffer.reach report).explain fun _ => .memoryMap .invalidParameter
    return report

/-- Asks the firmware for its map again, into the same buffer. -/
def retake (map : MemoryMap) : Program Services (MemoryMap × Outcome Cause Unit) := do
  if map.buffer.bytes = [] then return (map, .fail .bufferTooSmall)
  let reply ← Services.memoryMap map.buffer.bytes
  let buffer := { map.buffer with bytes := map.buffer.bytes.overlay 0 reply.written }
  match accept buffer reply.outcome with
  | .ok report => return (⟨buffer, report⟩, .ok ())
  | .error stop => return ({ map with buffer }, .error stop)

/-- The first snapshot in a buffer. -/
def take (buffer : Buffer) : Program Services (MemoryMap × Outcome Cause Unit) :=
  (blank buffer).retake

/-- Descriptors in the map. -/
def length (map : MemoryMap) : Nat := map.report.size.toNat / map.report.stride.toNat

/-- The descriptors, in the order of the firmware and at its stride. -/
def descriptors (map : MemoryMap) : List Descriptor :=
  (List.range map.length).map fun i =>
    Descriptor.read map.buffer.bytes (i * map.report.stride.toNat)

/-- The descriptors, if they can be reached. -/
def inspect (map : MemoryMap) : Outcome Cause (List Descriptor) := do
  (map.buffer.reach map.report).explain fun _ => Cause.memoryMap .invalidParameter
  return map.descriptors

end MemoryMap

end EfiLoader
