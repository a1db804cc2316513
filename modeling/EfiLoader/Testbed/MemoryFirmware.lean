import EfiLoader.MemoryMap.Descriptor
import EfiLoader.Services.Request
import EfiLoader.Testbed.Area
import EfiLoader.Testbed.FileTable
import EfiLoader.Testbed.Pool

/-!
Firmware for tests that lives in memory. It keeps the promises of real firmware: what real firmware
would allocate for changes the key, granted pages never meet taken ones, and a call after the exit
is a crash. A few failures can be set up.
-/

namespace EfiLoader.Testbed

open Services (File MapReport MapReply Block ReadReply)

structure MemoryFirmware where
  regions : List MemoryMap.Descriptor := []
  stride : UInt64 := 40
  key : UInt64 := 0x1000
  mapCalls : Nat := 0
  mapFailure : Option Status := none
  files : FileTable := {}
  readLimit : Option Nat := none
  /-- Writes that still succeed, and what the others fail with. -/
  writesBeforeFailure : Option (Nat × Status) := none
  /-- Addresses of the pool blocks in use. -/
  pool : List UInt64 := []
  blockCount : Nat := 0
  poolFailure : Option Status := none
  /-- The memory that pages come from. -/
  physical : Area := ⟨0x100000, List.replicate 0x20000 0xcc⟩
  /-- Taken ranges, without their ends. -/
  reserved : List (Nat × Nat) := []
  pageRequests : List (UInt64 × Nat) := []
  graphics : Option Screen.Mode := none
  graphicsFailure : Option Status := none
  screen : Option Area := none
  /-- What the next exits fail with, whatever their key. -/
  exitFailures : List Status := []
  exitAttempts : List UInt64 := []
  exited : Bool := false

namespace MemoryFirmware

def setGraphics (firmware : MemoryFirmware) (mode : Screen.Mode) : MemoryFirmware :=
  { firmware with graphics := some mode, screen := Area.ofMode? mode }

/-- The bytes of physical memory from `address` on; a crash if there are not so many. -/
def physicalBytes (firmware : MemoryFirmware) (address count : Nat) : Outcome Status Bytes :=
  if firmware.physical.base ≤ address ∧ address + count ≤ firmware.physical.limit then
    .ok (firmware.physical.bytes.slice (address - firmware.physical.base) count)
  else .crash

/-- A call that real firmware allocates for. -/
def allocating {α : Type} (call : StateM MemoryFirmware (Outcome Status α)) :
    StateM MemoryFirmware (Outcome Status α) := do
  if (← get).exited then return .crash
  modify fun firmware => { firmware with key := firmware.key + 1 }
  call

/-- Offset and bytes of the fields of a descriptor that is not virtually mapped, in the order in
which they are written. -/
def fields (d : MemoryMap.Descriptor) : List (Nat × Bytes) :=
  [(0, Bytes.ofNatLE 4 d.type.toNat), (4, Bytes.ofNatLE 4 0),
   (8, Bytes.ofNatLE 8 d.physicalStart.toNat), (16, Bytes.ofNatLE 8 0),
   (24, Bytes.ofNatLE 8 d.pageCount.toNat), (32, Bytes.ofNatLE 8 d.attributes.toNat)]

/-- Writes descriptors `stride` apart. One that is longer than the stride ends it in a crash, with
the fields before its end written. -/
def writeMap (stride : Nat) : Nat → List MemoryMap.Descriptor → Bytes → Bytes × Outcome Status Unit
  | _, [], buffer => (buffer, .ok ())
  | offset, d :: rest, buffer =>
    let fitting := (fields d).takeWhile fun field => field.1 + field.2.length ≤ stride
    let buffer := fitting.foldl (fun buffer field => buffer.overlay (offset + field.1) field.2)
      buffer
    if stride < MemoryMap.Descriptor.size then (buffer, .crash)
    else writeMap stride (offset + stride) rest buffer

def memoryMap (buffer : Bytes) : StateM MemoryFirmware MapReply := do
  let firmware ← get
  if firmware.exited then return ⟨buffer, .crash⟩
  set { firmware with mapCalls := firmware.mapCalls + 1 }
  if let some status := firmware.mapFailure then return ⟨buffer, .fail status⟩
  let size := firmware.stride.toNat * firmware.regions.length
  if Kernel.wordLimit ≤ size then return ⟨buffer, .crash⟩
  if buffer.length < size then return ⟨buffer, .fail .bufferTooSmall⟩
  if firmware.stride = 0 then return ⟨buffer, .crash⟩
  let (buffer, outcome) := writeMap firmware.stride.toNat 0 firmware.regions buffer
  return ⟨buffer, outcome.map fun () => ⟨.ofNat size, firmware.key, firmware.stride, 1⟩⟩

/-- Runs a step on the files. -/
def onFiles {α : Type} (step : FileTable → α × FileTable) : StateM MemoryFirmware α :=
  modifyGet fun firmware =>
    let (value, files) := step firmware.files
    (value, { firmware with files })

def openFile (path : String) : StateM MemoryFirmware (Outcome Status File) := allocating do
  if ¬ (← get).files.contains path then return .fail .notFound
  return .ok (← onFiles (·.openAt path))

def createFile (path : String) : StateM MemoryFirmware (Outcome Status File) := allocating do
  return .ok (← onFiles fun files => (files.put path []).openAt path)

def fileSize (file : File) : StateM MemoryFirmware (Outcome Status UInt64) := do
  return .ok (.ofNat ((← get).files.whole file).length)

/-- Reads from where the file stands; a crash if it stands past its end. -/
def readFile (file : File) (count : UInt64) :
    StateM MemoryFirmware (Outcome Status ReadReply) := do
  let firmware ← get
  if (firmware.files.whole file).length < (firmware.files.handle file).position then return .crash
  let limit := firmware.readLimit.getD count.toNat
  let data ← onFiles (·.read file (min count.toNat limit))
  return .ok ⟨.ofNat data.length, data⟩

def writeFile (file : File) (data : Bytes) : StateM MemoryFirmware (Outcome Status Unit) := do
  match (← get).writesBeforeFailure with
  | some (0, status) => return .fail status
  | left =>
    modify fun firmware =>
      { firmware with
        writesBeforeFailure := left.map fun (count, status) => (count - 1, status)
        files := firmware.files.write file data }
    return .ok ()

/-- Largest size that an address space of signed offsets has room for. -/
def blockLimit : Nat := 0x7fffffffffffffff

def allocatePool (size : UInt64) : StateM MemoryFirmware (Outcome Status Block) := allocating do
  let firmware ← get
  if let some status := firmware.poolFailure then return .fail status
  if blockLimit < size.toNat then return .crash
  let block := blockAddress firmware.blockCount
  set { firmware with pool := firmware.pool ++ [block], blockCount := firmware.blockCount + 1 }
  return .ok ⟨block, List.replicate size.toNat 0xdd⟩

def freePool (block : UInt64) : StateM MemoryFirmware (Outcome Status Unit) := allocating do
  let firmware ← get
  if block ∉ firmware.pool then return .fail .invalidParameter
  set { firmware with pool := firmware.pool.erase block }
  return .ok ()

def allocatePages (address : UInt64) (count : Nat) :
    StateM MemoryFirmware (Outcome Status UInt64) := allocating do
  modify fun firmware =>
    { firmware with pageRequests := firmware.pageRequests ++ [(address, count)] }
  let firmware ← get
  let first := address.toNat
  let last := first + count * Kernel.pageSize
  if Kernel.wordLimit ≤ last then return .crash
  if ¬ firmware.physical.isFree firmware.reserved first last then return .fail .notFound
  set { firmware with reserved := firmware.reserved ++ [(first, last)] }
  return .ok address

def graphicsMode : StateM MemoryFirmware (Outcome Status (Option Screen.Mode)) := allocating do
  let firmware ← get
  match firmware.graphicsFailure with
  | some status => return .fail status
  | none => return .ok firmware.graphics

def exitBootServices (key : UInt64) : StateM MemoryFirmware (Outcome Status Unit) := do
  let firmware ← get
  if firmware.exited then return .crash
  let firmware := { firmware with exitAttempts := firmware.exitAttempts ++ [key] }
  match firmware.exitFailures with
  | status :: rest =>
    set { firmware with exitFailures := rest }
    return .fail status
  | [] =>
    if key ≠ firmware.key then
      set firmware
      return .fail .invalidParameter
    set { firmware with exited := true }
    return .ok ()

def changeMemory (change : Area → Area) : StateM MemoryFirmware Unit :=
  modify fun firmware =>
    { firmware with physical := change firmware.physical, screen := firmware.screen.map change }

def answer : (request : Services.Request) → StateM MemoryFirmware (Services.Reply request)
  | .memoryMap buffer => memoryMap buffer
  | .openFile path => openFile path
  | .createFile path => createFile path
  | .fileSize file => fileSize file
  | .readFile file count => readFile file count
  | .writeFile file data => writeFile file data
  | .closeFile _ => pure ()
  | .allocatePool size => allocatePool size
  | .freePool block => freePool block
  | .allocatePages address count => allocatePages address count
  | .graphicsMode => graphicsMode
  | .exitBootServices key => exitBootServices key
  | .store address data => changeMemory (·.store address.toNat data)
  | .fill address count value => changeMemory (·.fill address.toNat count.toNat value)
  | .log _ => pure ()

/-- Runs a program on the firmware. -/
def perform {α : Type} (program : Program Services α) : StateM MemoryFirmware α :=
  program.run answer

end MemoryFirmware

end EfiLoader.Testbed
