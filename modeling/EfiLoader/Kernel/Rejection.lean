import EfiLoader.Numeral

/-!
Why a kernel file is not loaded.
-/

namespace EfiLoader.Kernel

inductive Rejection where
  /-- No ELF file, or a header table lies outside the file. -/
  | malformed
  | notElf64
  | notX86_64
  /-- Only statically linked files can be placed at their link addresses. -/
  | notExecutable
  | noProgramHeaders
  /-- The segment takes more bytes from the file than it has in memory. -/
  | fileSizeExceedsMemorySize (address : UInt64)
  | segmentOutsideFile (address : UInt64)
  /-- The end of the segment does not fit in a word. -/
  | segmentWrapsAround (address : UInt64)
  deriving DecidableEq, Repr

namespace Rejection

def message : Rejection → String
  | malformed => "malformed ELF image"
  | notElf64 => "not a 64-bit ELF image"
  | notX86_64 => "not an x86_64 ELF image"
  | notExecutable => "not a statically linked executable"
  | noProgramHeaders => "no program headers"
  | fileSizeExceedsMemorySize address =>
    "segment at " ++ Numeral.address address.toNat ++ " has p_filesz > p_memsz"
  | segmentOutsideFile address =>
    "segment at " ++ Numeral.address address.toNat ++ " lies outside the file"
  | segmentWrapsAround address =>
    "segment at " ++ Numeral.address address.toNat ++ " wraps around the address space"

end Rejection

end EfiLoader.Kernel
