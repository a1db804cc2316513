import EfiLoader.MemoryMap.Snapshot

/-!
The memory map as text: a header line, then one line for each descriptor.
-/

namespace EfiLoader.MemoryMap.Listing

open Boot (Cause)

def target : String := "boot_handoff::memory_map"

def header : String := "Index, Type, Type(name), PhysicalStart, NumberOfPages, Attribute\n"

/-- The attribute bits that are listed. -/
def attributeMask : UInt64 := 0xfffff

def line (index : Nat) (d : Descriptor) : String :=
  Numeral.decimal index ++ ", " ++ Numeral.hex d.type.toNat ++ ", " ++ typeName d.type ++ ", "
    ++ Numeral.zeroHex 8 d.physicalStart.toNat ++ ", " ++ Numeral.hex d.pageCount.toNat ++ ", "
    ++ Numeral.hex (d.attributes &&& attributeMask).toNat ++ "\n"

/-- Room for one line. -/
def lineCapacity : Nat := 256

/-- Writes the lines of descriptors that are counted from `index` on. -/
def writeLines (file : Services.File) : Nat → List Descriptor → Attempt Cause Unit
  | _, [] => return ()
  | index, d :: rest => do
    let bytes := Bytes.utf8 (line index d)
    if lineCapacity < bytes.length then Attempt.fail (.io .bufferTooSmall)
    Attempt.require (Services.writeFile file bytes) .io
    writeLines file (index + 1) rest

/-- Writes a map to an open file. Ends at the first write that fails; what was written stays. -/
def write (map : MemoryMap) (file : Services.File) : Attempt Cause Unit := do
  Attempt.require (Services.writeFile file (Bytes.utf8 header)) .io
  Services.log .debug target <|
    "map->buffer = " ++ Numeral.wideAddress map.buffer.address.toNat
      ++ ", map->map_size = " ++ Numeral.wideAddress map.report.size.toNat
  let descriptors ← Attempt.ofOutcome map.inspect
  writeLines file 0 descriptors

/-- Puts the listing in place of the file at `path`. -/
def save (map : MemoryMap) (path : String) : Attempt Cause Unit := do
  let file ← Attempt.require (Services.createFile path) .io
  let written ← (write map file).settle
  Services.closeFile file
  Attempt.ofExcept written

end EfiLoader.MemoryMap.Listing
