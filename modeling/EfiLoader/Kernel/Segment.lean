import EfiLoader.Kernel.Elf
import EfiLoader.Kernel.Rejection
import EfiLoader.Outcome

/-!
Loadable segments and the pages that they need. Sums are exact: a sum that does not fit in a word is
a failed check, never a smaller number.
-/

namespace EfiLoader.Kernel

def pageSize : Nat := 4096

/-- One past the largest word. -/
def wordLimit : Nat := 0x10000000000000000

structure Segment where
  fileOffset : UInt64
  address : UInt64
  fileSize : UInt64
  memorySize : UInt64
  deriving DecidableEq, Repr

namespace Segment

def ofHeader (header : Elf.ProgramHeader) : Segment :=
  ⟨header.offset, header.address, header.fileSize, header.memorySize⟩

def fileEnd (s : Segment) : Nat := s.fileOffset.toNat + s.fileSize.toNat

def memoryEnd (s : Segment) : Nat := s.address.toNat + s.memorySize.toNat

def check (fileLength : Nat) (s : Segment) : Except Rejection Unit :=
  if s.memorySize < s.fileSize then .error (.fileSizeExceedsMemorySize s.address)
  else if wordLimit ≤ s.memoryEnd then .error (.segmentWrapsAround s.address)
  else if fileLength < s.fileEnd then .error (.segmentOutsideFile s.address)
  else .ok ()

/-- The segment's memory at first: its bytes of the file, then zeros. -/
def contents (file : Bytes) (s : Segment) : Bytes :=
  file.slice s.fileOffset.toNat s.fileSize.toNat
    ++ List.replicate (s.memorySize.toNat - s.fileSize.toNat) 0

/-- Offset and bytes of the one store that puts the segment into `size` bytes of memory starting at
`base`; nothing if the segment lies outside these or outside the file. -/
def store? (file : Bytes) (base : UInt64) (size : Nat) (s : Segment) : Option (Nat × Bytes) :=
  if s.fileEnd ≤ file.length ∧ s.fileSize ≤ s.memorySize ∧ base ≤ s.address
      ∧ s.address.toNat - base.toNat + s.memorySize.toNat ≤ size then
    some (s.address.toNat - base.toNat, s.contents file)
  else none

end Segment

/-- The addresses from `first` up to and without `last`. -/
structure Span where
  first : UInt64
  last : UInt64
  deriving DecidableEq, Repr

namespace Span

variable {ε : Type}

/-- Where the page of `first` starts. -/
def base (span : Span) : UInt64 := span.first / 4096 * 4096

/-- Pages from `base` on that reach `last`; a crash if `last` lies before them. -/
def pages (span : Span) : Outcome ε Nat :=
  if span.base ≤ span.last then
    .ok ((span.last.toNat - span.base.toNat + (pageSize - 1)) / pageSize)
  else .crash

/-- The memory of a segment; a crash if its end does not fit in a word. -/
def ofSegment (s : Segment) : Outcome ε Span :=
  if s.memoryEnd < wordLimit then .ok ⟨s.address, s.address + s.memorySize⟩ else .crash

def join (a b : Span) : Span := ⟨min a.first b.first, max a.last b.last⟩

/-- The least span that holds all segments, nothing for none. -/
def cover (segments : List Segment) : Outcome ε (Option Span) :=
  segments.foldlM (fun joined s => do
    let own ← ofSegment s
    return some (match joined with
      | none => own
      | some span => span.join own)) none

end Span

end EfiLoader.Kernel
