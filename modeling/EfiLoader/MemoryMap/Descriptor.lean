import EfiLoader.Bytes

/-!
Memory descriptors in the firmware's layout: a 32-bit type, four bytes of padding, and four words.
-/

namespace EfiLoader.MemoryMap

structure Descriptor where
  type : UInt32
  physicalStart : UInt64
  virtualStart : UInt64
  pageCount : UInt64
  attributes : UInt64
  deriving DecidableEq, Repr

namespace Descriptor

/-- Bytes of one descriptor; the firmware may put them further apart. -/
def size : Nat := 40

/-- The descriptor that starts at `offset`. -/
def read (bytes : Bytes) (offset : Nat) : Descriptor where
  type := .ofNat (bytes.numberAt 4 offset)
  physicalStart := .ofNat (bytes.numberAt 8 (offset + 8))
  virtualStart := .ofNat (bytes.numberAt 8 (offset + 16))
  pageCount := .ofNat (bytes.numberAt 8 (offset + 24))
  attributes := .ofNat (bytes.numberAt 8 (offset + 32))

def toBytes (d : Descriptor) : Bytes :=
  Bytes.ofNatLE 8 d.type.toNat ++ Bytes.ofNatLE 8 d.physicalStart.toNat
    ++ Bytes.ofNatLE 8 d.virtualStart.toNat ++ Bytes.ofNatLE 8 d.pageCount.toNat
    ++ Bytes.ofNatLE 8 d.attributes.toNat

@[simp] theorem length_toBytes (d : Descriptor) : d.toBytes.length = size := by
  simp [toBytes, size]

/-- Stores descriptors into a buffer from `offset` on, each cut off where the next one starts. -/
def layOut (stride : Nat) : Nat → List Descriptor → Bytes → Bytes
  | _, [], buffer => buffer
  | offset, d :: rest, buffer =>
    layOut stride (offset + stride) rest (buffer.overlay offset (d.toBytes.take stride))

@[simp] theorem length_layOut (stride offset : Nat) (ds : List Descriptor) (buffer : Bytes) :
    (layOut stride offset ds buffer).length = buffer.length := by
  induction ds generalizing offset buffer with
  | nil => rfl
  | cons d rest ih => simp [layOut, ih]

end Descriptor

/-- The firmware's name of a memory type. -/
def typeName (type : UInt32) : String :=
  (["EfiReservedMemoryType", "EfiLoaderCode", "EfiLoaderData", "EfiBootServicesCode",
    "EfiBootServicesData", "EfiRuntimeServicesCode", "EfiRuntimeServicesData",
    "EfiConventionalMemory", "EfiUnusableMemory", "EfiACPIReclaimMemory", "EfiACPIMemoryNVS",
    "EfiMemoryMappedIO", "EfiMemoryMappedIOPortSpace", "EfiPalCode", "EfiPersistentMemory",
    "EfiMaxMemoryType"][type.toNat]?).getD "InvalidMemoryType"

end EfiLoader.MemoryMap
