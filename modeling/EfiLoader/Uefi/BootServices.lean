import EfiLoader.Kernel.Segment
import EfiLoader.Uefi.Logger

/-!
The services of a boot attempt on UEFI.
-/

namespace EfiLoader.Uefi

/-- Calls that end with a status in the first one that fails. -/
abbrev Call := ExceptT (Stop Status) Loader

namespace Call

variable {α : Type}

def fail (status : Status) : Call α := throw (.failed status)

/-- The value that UEFI replies. -/
def ofReply (reply : Program Uefi (Except Status α)) : Call α := do
  match ← (reply : Program Uefi _) with
  | .ok value => return value
  | .error status => fail status

/-- The outcome of some calls, so that others can follow a failure. -/
def settle (call : Call α) : Call (Except Status α) := ExceptT.mk do
  match ← call.run with
  | .ok value => return .ok (.ok value)
  | .error (.failed status) => return .ok (.error status)
  | .error .crashed => return .error .crashed

end Call

/-- Opens the volume that the loader was started from. -/
def openBootVolume : Call Unit := do
  if ¬ (← Call.ofReply (ask .openLoadedImage)) then Call.fail .unsupported
  Call.ofReply (ask .openDevicePath)
  Call.ofReply (ask .locateDevicePath)
  Call.ofReply (ask .openFileSystem)
  Call.ofReply (ask .openVolume)

/-- Opens a file of the boot volume. Directories have no position; what has none is no file. -/
def openRegular (name : String) (mode : FileMode) : Call File := do
  openBootVolume
  let file ← Call.ofReply (ask (.openFile name mode))
  match ← ask (.getPosition file) with
  | .ok _ => return file
  | .error _ => Call.fail .invalidParameter

/-- Opening to write keeps old contents, so an old file is deleted first. -/
def createFile (name : String) : Call File := do
  match ← (openRegular name .readWrite).settle with
  | .ok old => Call.ofReply (ask (.deleteFile old))
  | .error _ => pure ()
  openRegular name .createReadWrite

def fileSize (file : File) : Call UInt64 := do
  Call.ofReply (ask (.setPosition file none))
  let size ← Call.ofReply (ask (.getPosition file))
  Call.ofReply (ask (.setPosition file (some 0)))
  return size

/-- Most bytes that one read asks for. -/
def readChunk : Nat := 0x100000

/-- Reads up to `count` bytes, chunk by chunk, to the first chunk that comes short. -/
def readFile (file : File) : Nat → Call Bytes
  | 0 => return []
  | count + 1 => do
    let wanted := min (count + 1) readChunk
    let data ← Call.ofReply (ask (.readFile file wanted))
    if wanted < data.length then throw .crashed
    if data.length < wanted then return data
    return data ++ (← readFile file (count + 1 - wanted))
termination_by count => count
decreasing_by simp only [readChunk]; omega

/-- The boot services' answer for the memory map; they are gone without a system table. -/
def memoryMap (buffer : Bytes) : Loader Services.MapReply := do
  if ¬ (← get).systemTable then return ⟨buffer, .fail .unsupported⟩
  let reply ← ask (.memoryMap buffer)
  return ⟨reply.written, if reply.status.isError then .fail reply.status else .ok reply.report⟩

/-- The mode of the first graphics device. A mode without a frame buffer is a crash. -/
def graphicsMode : Call (Option Screen.Mode) := do
  match ← ask .locateGraphics with
  | .error status => if status = .notFound then return none else Call.fail status
  | .ok 0 => return none
  | .ok _ =>
    let mode ← Call.ofReply (ask .openGraphics)
    if mode.format = .bltOnly then throw .crashed
    return some mode

/-- After the exit there is no system table. -/
def exitBootServices (key : UInt64) : Call Unit := do
  if ¬ (← get).systemTable then Call.fail .unsupported
  let status ← ask (.exitBootServices key)
  if status.isError then Call.fail status
  modify fun state => { state with systemTable := false }

def answer : (request : Services.Request) → Loader (Services.Reply request)
  | .memoryMap buffer => memoryMap buffer
  | .openFile path => (openRegular path .read).run
  | .createFile path => (createFile path).run
  | .fileSize file => (fileSize file).run
  | .readFile file count => ExceptT.run do
    let data ← readFile file count.toNat
    return ⟨.ofNat data.length, data⟩
  | .writeFile file data => (Call.ofReply (ask (.writeFile file data))).run
  | .closeFile file => ask (.closeFile file)
  | .allocatePool size => (Call.ofReply (ask (.allocatePool size))).run
  | .freePool block => (Call.ofReply (ask (.freePool block))).run
  | .allocatePages address count => (Call.ofReply (ask (.allocatePages address count))).run
  | .graphicsMode => graphicsMode.run
  | .exitBootServices key => (exitBootServices key).run
  | .store address data => ask (.store address data)
  | .fill address count value => ask (.fill address count value)
  | .log record => do let _ ← log record

end EfiLoader.Uefi
