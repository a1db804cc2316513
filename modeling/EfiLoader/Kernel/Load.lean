import EfiLoader.Attempt
import EfiLoader.Boot.Cause
import EfiLoader.Kernel.Executable

/-!
Loading the kernel: the file is read as a whole into a pool block, its segments are placed at their
addresses, and the block is released whatever came of them.
-/

namespace EfiLoader.Kernel

open Boot (Cause)

def target : String := "boot_handoff::image"

/-- Where a kernel ended up. -/
structure Loaded where
  entry : UInt64
  span : Span
  deriving DecidableEq, Repr

/-- A pool block that holds a whole file. -/
structure Staged where
  block : UInt64
  bytes : Bytes

def readFailure (block : Services.Block) (size : UInt64) (status : Status) : String :=
  "Failed to load kernel file to temporary memory: buffer = "
    ++ Numeral.wideAddress block.address.toNat ++ ", size = " ++ Numeral.decimal size.toNat
    ++ ": " ++ status.text

/-- Reads a file into a new pool block. A file that comes short of its size counts as ended. -/
def stage (file : Services.File) : Attempt Cause Staged := do
  let size ← Attempt.require (Services.fileSize file) .io
  match ← Attempt.reply (Services.allocatePool size) with
  | .error status =>
    Services.log .error target ("Memory pool allocation failed: " ++ status.text)
    Attempt.fail (.outOfMemory status)
  | .ok block =>
    let giveUp (status : Status) : Attempt Cause Staged := do
      Services.log .error target (readFailure block size status)
      let _ ← Attempt.reply (Services.freePool block.address)
      Attempt.fail (.io status)
    match ← Attempt.reply (Services.readFile file size) with
    | .error status => giveUp status
    | .ok reply =>
      if reply.count = size then
        let memory := Bytes.overlay (List.replicate size.toNat 0) 0 block.contents
        return ⟨block.address, memory.overlay 0 reply.data⟩
      else giveUp .endOfFile

/-- Stores the segments into `size` bytes of memory at `destination`, which stand for the memory
from `base` on. -/
def storeSegments (file : Bytes) (base destination : UInt64) (size : Nat) :
    List Segment → Attempt Cause Unit
  | [] => return ()
  | s :: rest => do
    match s.store? file base size with
    | none => Attempt.crash
    | some (offset, data) =>
      Services.store (destination + .ofNat offset) data
      storeSegments file base destination size rest

/-- Claims the pages of a kernel and stores its segments there. -/
def placeFile (file : Bytes) : Attempt Cause Loaded := do
  let kernel ← Attempt.ofExcept ((Executable.parse file).mapError .invalidKernel)
  let some span ← Attempt.ofOutcome kernel.span | Attempt.fail .noLoadSegments
  let pages ← Attempt.ofOutcome span.pages
  match ← Attempt.reply (Services.allocatePages span.base pages) with
  | .error status =>
    Services.log .error target <|
      "Memory allocation failed for " ++ Numeral.decimal pages ++ " pages at "
        ++ Numeral.address span.base.toNat ++ ": " ++ status.text
    Attempt.fail (.addressRangeUnavailable status)
  | .ok destination =>
    if wordLimit ≤ pages * pageSize then Attempt.crash
    storeSegments file span.base destination (pages * pageSize) kernel.segments
    Services.log .info target <|
      "Kernel: " ++ Numeral.address span.first.toNat ++ " - "
        ++ Numeral.address span.last.toNat
    return ⟨kernel.entry, span⟩

def load (path : String) : Attempt Cause Loaded := do
  match ← Attempt.reply (Services.openFile path) with
  | .error status =>
    Services.log .error target ("Failed to open file " ++ path ++ ": " ++ status.text)
    Attempt.fail (if status = .notFound then .fileNotFound status else .io status)
  | .ok file =>
    let staged ← (stage file).settle
    Services.closeFile file
    let staged ← Attempt.ofExcept staged
    let placed ← (placeFile staged.bytes).settle
    let freed ← Attempt.reply (Services.freePool staged.block)
    let loaded ← Attempt.ofExcept placed
    match freed with
    | .ok () => return loaded
    | .error status =>
      Services.log .error target ("Failed to free pool: " ++ status.text)
      Attempt.fail (.io status)

end EfiLoader.Kernel
