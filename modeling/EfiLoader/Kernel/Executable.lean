import EfiLoader.Kernel.Segment

/-!
Kernel files that can be placed: statically linked ELF64 executables for x86_64 whose loadable
segments lie in the file and in the address space. They go to their link addresses as they are.
-/

namespace EfiLoader.Kernel

def machineX86_64 : Nat := 62
def typeExecutable : Nat := 2
def headerLoadable : Nat := 1

structure Executable where
  file : Bytes
  entry : UInt64
  /-- The loadable entries in the order of the program header table. -/
  segments : List Segment
  deriving DecidableEq, Repr

namespace Executable

variable {ε : Type}

def parse (file : Bytes) : Except Rejection Executable := do
  let some elf := Elf.parse? file | throw .malformed
  if elf.fileClass ≠ .elf64 then throw .notElf64
  if elf.machine ≠ machineX86_64 then throw .notX86_64
  if elf.type ≠ typeExecutable then throw .notExecutable
  let headers := elf.programHeaders.getD []
  if headers = [] then throw .noProgramHeaders
  let segments := (headers.filter (·.type = headerLoadable)).map Segment.ofHeader
  segments.forM (Segment.check file.length)
  return ⟨file, elf.entry, segments⟩

/-- The memory that the segments take, nothing without segments. -/
def span (kernel : Executable) : Outcome ε (Option Span) := Span.cover kernel.segments

/-- Stores every segment into `buffer`, which stands for the memory from the base of `span` on.
Bytes between segments stay. A segment that does not fit ends it in a crash, with the segments
before it stored. -/
def place (kernel : Executable) (span : Span) (buffer : Bytes) : Bytes × Outcome ε Unit :=
  go kernel.segments buffer
where
  go : List Segment → Bytes → Bytes × Outcome ε Unit
    | [], buffer => (buffer, .ok ())
    | s :: rest, buffer =>
      match s.store? kernel.file span.base buffer.length with
      | none => (buffer, .crash)
      | some (offset, bytes) => go rest (buffer.overlay offset bytes)

end Executable

end EfiLoader.Kernel
