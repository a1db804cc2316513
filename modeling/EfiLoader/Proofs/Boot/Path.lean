import EfiLoader.Boot.Launch
import EfiLoader.Proofs.Kernel.Loading
import EfiLoader.Proofs.MemoryMap.Recording

/-!
The path of a boot attempt through its calls: between two calls it stands at a `Position`, a `Move`
is a call that went well, and a call that `Breaks` the path, by its status or by what it replied,
says which failure to tell. What was opened or allocated on the way and not released is `due`.

Main statements: a position knows what is due there (`Run.due`), and up to a break everything
succeeded but for one refused exit (`Run.succeeded`).
-/

namespace EfiLoader

open Boot (Cause)
open Services (MapReply MapReport)

variable {h h' : List (Exchange Services)}

namespace Exchange

/-- A call of a service; stores to memory and notes for the log are none. -/
def isCall (e : Exchange Services) : Bool :=
  match e.request with
  | .store _ _ | .fill _ _ _ | .log _ => false
  | _ => true

/-- What has to release that which the call opened or allocated. -/
def release? : Exchange Services → Option Services.Request
  | ⟨.openFile _, .ok file⟩ => some (.closeFile file)
  | ⟨.createFile _, .ok file⟩ => some (.closeFile file)
  | ⟨.allocatePool _, .ok block⟩ => some (.freePool block.address)
  | _ => none

/-- The releases due after an exchange, latest first. One that was tried is not due any more. -/
def dueAfter (due : List Services.Request) (e : Exchange Services) : List Services.Request :=
  match e.release? with
  | some release => release :: due
  | none => due.erase e.request

end Exchange

/-- The calls of a history. -/
def calls (h : List (Exchange Services)) : List (Exchange Services) := h.filter Exchange.isCall

/-- The releases that are due after a history, latest first. -/
def due (h : List (Exchange Services)) : List Services.Request := h.foldl Exchange.dueAfter []

@[simp] theorem calls_nil : calls [] = [] := rfl

@[simp] theorem calls_cons (e : Exchange Services) :
    calls (e :: h) = if e.isCall then e :: calls h else calls h := List.filter_cons

@[simp] theorem calls_append : calls (h ++ h') = calls h ++ calls h' := List.filter_append h h'

namespace Boot

/-- Where an attempt stands between two calls. -/
inductive Position where
  | start
  | creating (map : MemoryMap)
  /-- With the texts that are still to be written. -/
  | writing (map : MemoryMap) (file : Services.File) (texts : List Bytes)
  | searching (map : MemoryMap)
  | opening (map : MemoryMap)
  | sizing (map : MemoryMap) (file : Services.File)
  | allocating (map : MemoryMap) (file : Services.File) (size : UInt64)
  | reading (map : MemoryMap) (file : Services.File) (size : UInt64) (block : Services.Block)
  /-- With the contents of the file in the block. -/
  | closing (map : MemoryMap) (file : Services.File) (block : UInt64) (contents : Bytes)
  | claiming (map : MemoryMap) (block base : UInt64) (pages : Nat)
  | releasing (map : MemoryMap) (block : UInt64)
  | leaving (map : MemoryMap)
  | retaking (map : MemoryMap)
  | leavingAgain (map : MemoryMap)
  | left

/-- What is due at a position. -/
def Position.due : Position → List Services.Request
  | writing _ file _ | sizing _ file | allocating _ file _ => [.closeFile file]
  | reading _ file _ block => [.freePool block.address, .closeFile file]
  | closing _ file block _ => [.freePool block, .closeFile file]
  | claiming _ block _ _ | releasing _ block => [.freePool block]
  | _ => []

/-- Modes that can be described to a kernel. -/
def IsSupported (mode : Screen.Mode) : Prop := mode.format = .rgb ∨ mode.format = .bgr

theorem describe_cases (mode : Screen.Mode) :
    (IsSupported mode ∧ ∃ frameBuffer, Screen.describe mode = .ok frameBuffer) ∨
      (¬ IsSupported mode ∧
        Screen.describe mode = .error (.unsupportedPixelFormat mode.format)) := by
  unfold IsSupported Screen.describe
  cases mode.format <;> simp

section Path

variable (buffer : MemoryMap.Buffer) (options : Options)

open Kernel (Fits fillBlock)
open MemoryMap (Flaw Sound)
open MemoryMap.Listing (header lines)

/-- A call that went well takes an attempt from one position to the next. -/
inductive Move : Position → Exchange Services → Position → Prop
  | taken (reply : MapReply) (report : MapReport) (answered : reply.outcome = .ok report)
      (aligned : buffer.IsAligned) (sound : Sound buffer.bytes.length report) :
      Move .start ⟨.memoryMap buffer.bytes, reply⟩
        (if options.saveMemoryMap then .creating ⟨buffer.fill reply, report⟩
          else .searching ⟨buffer.fill reply, report⟩)
  | created (map : MemoryMap) (file : Services.File) :
      Move (.creating map) ⟨.createFile listingPath, .ok file⟩
        (.writing map file (Bytes.utf8 header :: lines map))
  | wrote (map : MemoryMap) (file : Services.File) (text : Bytes) (rest : List Bytes) :
      Move (.writing map file (text :: rest)) ⟨.writeFile file text, .ok ()⟩
        (.writing map file rest)
  | recorded (map : MemoryMap) (file : Services.File) :
      Move (.writing map file []) ⟨.closeFile file, ()⟩ (.searching map)
  | found (map : MemoryMap) (mode : Screen.Mode) (supported : IsSupported mode) :
      Move (.searching map) ⟨.graphicsMode, .ok (some mode)⟩ (.opening map)
  | opened (map : MemoryMap) (file : Services.File) :
      Move (.opening map) ⟨.openFile kernelPath, .ok file⟩ (.sizing map file)
  | sized (map : MemoryMap) (file : Services.File) (size : UInt64) :
      Move (.sizing map file) ⟨.fileSize file, .ok size⟩ (.allocating map file size)
  | allocated (map : MemoryMap) (file : Services.File) (size : UInt64) (block : Services.Block) :
      Move (.allocating map file size) ⟨.allocatePool size, .ok block⟩
        (.reading map file size block)
  | read (map : MemoryMap) (file : Services.File) (size : UInt64) (block : Services.Block)
      (reply : Services.ReadReply) (full : reply.count = size) :
      Move (.reading map file size block) ⟨.readFile file size, .ok reply⟩
        (.closing map file block.address (fillBlock size block reply.data))
  | accepted (map : MemoryMap) (file : Services.File) (block : UInt64) (contents : Bytes)
      {kernel : Kernel.Executable} {span : Kernel.Span} {pages : Nat}
      (fits : Fits contents kernel span pages) :
      Move (.closing map file block contents) ⟨.closeFile file, ()⟩
        (.claiming map block span.base pages)
  | claimed (map : MemoryMap) (block base : UInt64) (pages : Nat) (destination : UInt64) :
      Move (.claiming map block base pages) ⟨.allocatePages base pages, .ok destination⟩
        (.releasing map block)
  | released (map : MemoryMap) (block : UInt64) :
      Move (.releasing map block) ⟨.freePool block, .ok ()⟩ (.leaving map)
  | exited (map : MemoryMap) :
      Move (.leaving map) ⟨.exitBootServices map.report.key, .ok ()⟩ .left
  | refused (map : MemoryMap) :
      Move (.leaving map) ⟨.exitBootServices map.report.key, .fail .invalidParameter⟩
        (.retaking map)
  | retaken (map : MemoryMap) (reply : MapReply) (report : MapReport)
      (answered : reply.outcome = .ok report) (aligned : map.buffer.IsAligned)
      (sound : Sound map.buffer.bytes.length report) :
      Move (.retaking map) ⟨.memoryMap map.buffer.bytes, reply⟩
        (.leavingAgain ⟨map.buffer.fill reply, report⟩)
  | exitedAgain (map : MemoryMap) :
      Move (.leavingAgain map) ⟨.exitBootServices map.report.key, .ok ()⟩ .left

/-- A call ends the path at a position, and the failure that it is told as. -/
inductive Breaks : Position → Exchange Services → Failure → Prop
  | notTaken (reply : MapReply) (cause : Cause) (flaw : Flaw buffer reply.outcome cause) :
      Breaks .start ⟨.memoryMap buffer.bytes, reply⟩ ⟨.getMemoryMap, cause⟩
  | notCreated (map : MemoryMap) (status : Status) :
      Breaks (.creating map) ⟨.createFile listingPath, .fail status⟩ ⟨.saveMemoryMap, .io status⟩
  | notWritten (map : MemoryMap) (file : Services.File) (text : Bytes) (rest : List Bytes)
      (status : Status) :
      Breaks (.writing map file (text :: rest)) ⟨.writeFile file text, .fail status⟩
        ⟨.saveMemoryMap, .io status⟩
  | notSearched (map : MemoryMap) (status : Status) :
      Breaks (.searching map) ⟨.graphicsMode, .fail status⟩
        ⟨.openGraphicsOutput, .graphicsNotFound (some status)⟩
  | noDevice (map : MemoryMap) :
      Breaks (.searching map) ⟨.graphicsMode, .ok none⟩
        ⟨.openGraphicsOutput, .graphicsNotFound none⟩
  | unsupported (map : MemoryMap) (mode : Screen.Mode) (other : ¬ IsSupported mode) :
      Breaks (.searching map) ⟨.graphicsMode, .ok (some mode)⟩
        ⟨.describeFrameBuffer, .unsupportedPixelFormat mode.format⟩
  | noFile (map : MemoryMap) :
      Breaks (.opening map) ⟨.openFile kernelPath, .fail .notFound⟩
        ⟨.loadKernel, .fileNotFound .notFound⟩
  | notOpened (map : MemoryMap) (status : Status) (other : status ≠ .notFound) :
      Breaks (.opening map) ⟨.openFile kernelPath, .fail status⟩ ⟨.loadKernel, .io status⟩
  | notSized (map : MemoryMap) (file : Services.File) (status : Status) :
      Breaks (.sizing map file) ⟨.fileSize file, .fail status⟩ ⟨.loadKernel, .io status⟩
  | noMemory (map : MemoryMap) (file : Services.File) (size : UInt64) (status : Status) :
      Breaks (.allocating map file size) ⟨.allocatePool size, .fail status⟩
        ⟨.loadKernel, .outOfMemory status⟩
  | notRead (map : MemoryMap) (file : Services.File) (size : UInt64) (block : Services.Block)
      (status : Status) :
      Breaks (.reading map file size block) ⟨.readFile file size, .fail status⟩
        ⟨.loadKernel, .io status⟩
  | short (map : MemoryMap) (file : Services.File) (size : UInt64) (block : Services.Block)
      (reply : Services.ReadReply) (differs : reply.count ≠ size) :
      Breaks (.reading map file size block) ⟨.readFile file size, .ok reply⟩
        ⟨.loadKernel, .io .endOfFile⟩
  | rejected (map : MemoryMap) (file : Services.File) (block : UInt64) (contents : Bytes)
      (rejection : Kernel.Rejection)
      (parsed : Kernel.Executable.parse contents = .error rejection) :
      Breaks (.closing map file block contents) ⟨.closeFile file, ()⟩
        ⟨.loadKernel, .invalidKernel rejection⟩
  | nothing (map : MemoryMap) (file : Services.File) (block : UInt64) (contents : Bytes)
      (kernel : Kernel.Executable) (parsed : Kernel.Executable.parse contents = .ok kernel)
      (nil : kernel.segments = []) :
      Breaks (.closing map file block contents) ⟨.closeFile file, ()⟩ ⟨.loadKernel, .noLoadSegments⟩
  | notClaimed (map : MemoryMap) (block base : UInt64) (pages : Nat) (status : Status) :
      Breaks (.claiming map block base pages) ⟨.allocatePages base pages, .fail status⟩
        ⟨.loadKernel, .addressRangeUnavailable status⟩
  | notReleased (map : MemoryMap) (block : UInt64) (status : Status) :
      Breaks (.releasing map block) ⟨.freePool block, .fail status⟩ ⟨.loadKernel, .io status⟩
  | notLeft (map : MemoryMap) (status : Status) (other : status ≠ .invalidParameter) :
      Breaks (.leaving map) ⟨.exitBootServices map.report.key, .fail status⟩
        ⟨.exitBootServices, .exitBootServices status⟩
  | notRetaken (map : MemoryMap) (reply : MapReply) (cause : Cause)
      (flaw : Flaw map.buffer reply.outcome cause) :
      Breaks (.retaking map) ⟨.memoryMap map.buffer.bytes, reply⟩ ⟨.exitBootServices, cause⟩
  | notLeftAgain (map : MemoryMap) (status : Status) :
      Breaks (.leavingAgain map) ⟨.exitBootServices map.report.key, .fail status⟩
        ⟨.exitBootServices, .exitBootServices status⟩

/-- Calls in a row that all went well. -/
inductive Run : Position → List (Exchange Services) → Position → Prop
  | nil (p : Position) : Run p [] p
  | cons {p q r : Position} {e : Exchange Services} {h : List (Exchange Services)}
      (move : Move buffer options p e q) (run : Run q h r) : Run p (e :: h) r

end Path

variable {buffer : MemoryMap.Buffer} {options : Options} {p q r : Position} {e : Exchange Services}

theorem Run.single (move : Move buffer options p e q) : Run buffer options p [e] q :=
  .cons move (.nil q)

theorem Run.append (first : Run buffer options p h q) (rest : Run buffer options q h' r) :
    Run buffer options p (h ++ h') r := by
  induction first with
  | nil => exact rest
  | cons move _ ih => exact .cons move (ih rest)

theorem Move.due (move : Move buffer options p e q) : e.dueAfter p.due = q.due := by
  cases move with
  | taken =>
    change [] = Position.due (if options.saveMemoryMap then _ else _)
    split <;> rfl
  | recorded | accepted | released =>
    simp [Exchange.dueAfter, Exchange.release?, Position.due]
  | _ => rfl

/-- A position knows what is due there. -/
theorem Run.due (run : Run buffer options p h q) : h.foldl Exchange.dueAfter p.due = q.due := by
  induction run with
  | nil => rfl
  | cons move _ ih => rw [List.foldl_cons, move.due, ih]

theorem due_of_run (run : Run buffer options .start h q) (last : Exchange Services) :
    due (h ++ [last]) = last.dueAfter q.due := by
  rw [EfiLoader.due, List.foldl_append, ← run.due]
  rfl

/-- The firmware refused an exit as one with an old map. -/
def Refused (e : Exchange Services) : Prop :=
  ∃ key, e = ⟨.exitBootServices key, .fail .invalidParameter⟩

theorem Move.succeeded (move : Move buffer options p e q) : e.Succeeded ∨ Refused e := by
  cases move with
  | taken reply report answered | retaken _ reply report answered =>
    left
    change reply.outcome.map _ = _
    rw [answered]
    rfl
  | refused map => exact .inr ⟨_, rfl⟩
  | _ => exact .inl rfl

theorem Run.succeeded (run : Run buffer options p h q) : ∀ e ∈ h, e.Succeeded ∨ Refused e := by
  induction run with
  | nil => exact nofun
  | cons move _ ih => exact List.forall_mem_cons.mpr ⟨move.succeeded, ih⟩

theorem Move.unique (move : Move buffer options p e q) (move' : Move buffer options p e r) :
    q = r := by
  cases move with
  | taken reply report answered =>
    cases move' with
    | taken _ report' answered' =>
      cases answered.symm.trans answered'
      rfl
  | retaken map reply report answered =>
    cases move' with
    | retaken _ _ report' answered' =>
      cases answered.symm.trans answered'
      rfl
  | accepted map file block contents fits =>
    cases move' with
    | accepted _ _ _ _ fits' =>
      cases fits.parsed.symm.trans fits'.parsed
      cases fits.spanned.symm.trans fits'.spanned
      cases fits.counted.symm.trans fits'.counted
      rfl
  | _ => cases move'; rfl

theorem Breaks.unique {failure failure' : Failure} (breaks : Breaks buffer p e failure)
    (breaks' : Breaks buffer p e failure') : failure = failure' := by
  cases breaks with
  | notTaken reply cause flaw =>
    cases breaks' with
    | notTaken _ _ flaw' => rw [flaw.unique flaw']
  | notRetaken map reply cause flaw =>
    cases breaks' with
    | notRetaken _ _ _ flaw' => rw [flaw.unique flaw']
  | rejected _ _ _ _ rejection parsed =>
    cases breaks' with
    | rejected _ _ _ _ _ parsed' => cases parsed.symm.trans parsed'; rfl
    | nothing _ _ _ _ _ parsed' => cases parsed.symm.trans parsed'
  | nothing _ _ _ _ _ parsed =>
    cases breaks' with
    | rejected _ _ _ _ _ parsed' => cases parsed.symm.trans parsed'
    | nothing => rfl
  | noFile =>
    cases breaks' with
    | noFile => rfl
    | notOpened _ _ other => exact absurd rfl other
  | notOpened _ _ other =>
    cases breaks' with
    | noFile => exact absurd rfl other
    | notOpened => rfl
  | _ => cases breaks'; rfl

/-- A call goes well or breaks the path, not both. -/
theorem Move.not_breaks {failure : Failure} (move : Move buffer options p e q) :
    ¬ Breaks buffer p e failure := by
  intro breaks
  cases move with
  | taken reply report answered aligned sound =>
    cases breaks with
    | notTaken _ _ flaw => exact flaw.not_sound answered aligned sound
  | retaken map reply report answered aligned sound =>
    cases breaks with
    | notRetaken _ _ _ flaw => exact flaw.not_sound answered aligned sound
  | found map mode supported =>
    cases breaks with
    | unsupported _ _ other => exact other supported
  | read map file size block reply full =>
    cases breaks with
    | short _ _ _ _ _ differs => exact differs full
  | accepted map file block contents fits =>
    cases breaks with
    | rejected _ _ _ _ _ parsed => cases fits.parsed.symm.trans parsed
    | nothing _ _ _ _ _ parsed nil =>
      cases fits.parsed.symm.trans parsed
      exact fits.segments_ne_nil nil
  | refused map =>
    cases breaks with
    | notLeft _ _ other => exact other rfl
  | _ => cases breaks

/-- The calls up to the first break settle it. -/
theorem Run.break_unique {front front' after after' : List (Exchange Services)}
    {last last' : Exchange Services} {failure failure' : Failure}
    (run : Run buffer options p front q) (breaks : Breaks buffer q last failure)
    (run' : Run buffer options p front' r) (breaks' : Breaks buffer r last' failure')
    (same : front ++ last :: after = front' ++ last' :: after') : failure = failure' := by
  induction run generalizing front' with
  | nil =>
    cases run' with
    | nil =>
      cases same
      exact breaks.unique breaks'
    | cons move _ =>
      cases same
      exact absurd breaks move.not_breaks
  | cons move _ ih =>
    cases run' with
    | nil =>
      cases same
      exact absurd breaks' move.not_breaks
    | cons move' rest' =>
      obtain ⟨rfl, tails⟩ := List.cons.inj same
      cases move.unique move'
      exact ih breaks rest' tails

end Boot

end EfiLoader
