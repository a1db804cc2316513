import EfiLoader.MemoryMap.Descriptor
import EfiLoader.Services.Request
import EfiLoader.Testbed.Area
import EfiLoader.Testbed.FileTable
import EfiLoader.Testbed.Pool
import EfiLoader.Testbed.Script

/-!
Firmware for tests that follows a script: each service can be made to fail or to report what is not
so, call by call. All calls are noted.
-/

namespace EfiLoader.Testbed

open Services (File MapReport MapReply Block ReadReply)

inductive ScriptedService where
  | map | open | create | pool | free | pages | graphics | exit | size | read | write
  deriving DecidableEq, Repr

structure ScriptedFirmware where
  key : UInt64 := 0x1000
  regions : List MemoryMap.Descriptor := []
  stride : UInt64 := 40
  version : UInt32 := 1
  files : FileTable := {}
  /-- Paths of the files made by the loader. -/
  created : List String := []
  memory : Area
  /-- Taken ranges, without their ends. -/
  reserved : List (Nat × Nat) := []
  graphics : Option Screen.Mode := none
  screen : Option Area := none
  script : Script ScriptedService := []
  /-- Numbers of the pool blocks in use, oldest first. -/
  blocks : List Nat := []
  blockCount : Nat := 0
  exited : Bool := false
  /-- Service calls, latest first. -/
  calls : List String := []
  /-- Log records, latest first. -/
  records : List Log.Record := []

namespace ScriptedFirmware

def memoryOf (base size : Nat) (value : UInt8) : Area := ⟨base, List.replicate size value⟩

def initial : ScriptedFirmware := { memory := memoryOf 0x100000 0x4000 0xcc }

def setGraphics (firmware : ScriptedFirmware) (mode : Option Screen.Mode) : ScriptedFirmware :=
  { firmware with graphics := mode, screen := mode.bind Area.ofMode? }

/-- Notes a call. -/
def note (name : String) (arguments : List String) : StateM ScriptedFirmware Unit :=
  modify fun firmware =>
    { firmware with calls := (name ++ "(" ++ ", ".intercalate arguments ++ ")") :: firmware.calls }

def noteBare (name : String) : StateM ScriptedFirmware Unit :=
  modify fun firmware => { firmware with calls := name :: firmware.calls }

def changeKey : StateM ScriptedFirmware Unit :=
  modify fun firmware => { firmware with key := firmware.key + 1 }

/-- The turn of this call, a status it has to fail with going first. -/
def turn (service : ScriptedService) : StateM ScriptedFirmware (Except Status Turn) := do
  let (turn, script) := (← get).script.next service
  modify fun firmware => { firmware with script }
  return match turn with
    | .status status => .error status
    | turn => .ok turn

/-- Runs a call in its turn. -/
def scripted {α : Type} (service : ScriptedService)
    (call : Turn → StateM ScriptedFirmware (Outcome Status α)) :
    StateM ScriptedFirmware (Outcome Status α) := do
  match ← turn service with
  | .error status => return .fail status
  | .ok turn => call turn

def memoryMap (buffer : Bytes) : StateM ScriptedFirmware MapReply := do
  note "get_memory_map" [Numeral.decimal buffer.length]
  match ← turn .map with
  | .error status => return ⟨buffer, .fail status⟩
  | .ok turn =>
    let firmware ← get
    let stride := firmware.stride.toNat
    let size := stride * firmware.regions.length
    if buffer.length < size then return ⟨buffer, .fail .bufferTooSmall⟩
    let report := turn.reported
    return ⟨MemoryMap.Descriptor.layOut stride 0 firmware.regions buffer, .ok {
      size := report.mapSize.getD (.ofNat size)
      key := report.key.getD firmware.key
      stride := report.stride.getD firmware.stride
      version := report.version.getD firmware.version }⟩

/-- Runs a step on the files. -/
def onFiles {α : Type} (step : FileTable → α × FileTable) : StateM ScriptedFirmware α :=
  modifyGet fun firmware =>
    let (value, files) := step firmware.files
    (value, { firmware with files })

def openFile (path : String) : StateM ScriptedFirmware (Outcome Status File) := do
  note "open_file" [path]
  changeKey
  scripted .open fun _ => do
    if ¬ (← get).files.contains path then return .fail .notFound
    return .ok (← onFiles (·.openAt path))

def createFile (path : String) : StateM ScriptedFirmware (Outcome Status File) := do
  note "create_file" [path]
  changeKey
  scripted .create fun _ => do
    modify fun firmware =>
      { firmware with created := path :: firmware.created.filter (· ≠ path) }
    return .ok (← onFiles fun files => (files.put path []).openAt path)

def fileSize (file : File) : StateM ScriptedFirmware (Outcome Status UInt64) := do
  noteBare "size"
  scripted .size fun turn => do
    let size := ((← get).files.whole file).length
    return .ok (turn.reported.claim.getD (.ofNat size))

def readFile (file : File) (count : UInt64) :
    StateM ScriptedFirmware (Outcome Status ReadReply) := do
  note "read" [Numeral.decimal count.toNat]
  scripted .read fun turn => do
    let limit := turn.limit?.getD count.toNat
    let data ← onFiles (·.read file (min count.toNat limit))
    return .ok ⟨turn.reported.claim.getD (.ofNat data.length), data⟩

def writeFile (file : File) (data : Bytes) : StateM ScriptedFirmware (Outcome Status Unit) := do
  note "write" [Numeral.decimal data.length]
  scripted .write fun _ => return .ok (← onFiles fun files => ((), files.write file data))

def allocatePool (size : UInt64) : StateM ScriptedFirmware (Outcome Status Block) := do
  note "allocate_pool" [Numeral.decimal size.toNat]
  changeKey
  scripted .pool fun _ => do
    if poolLimit < size.toNat then return .fail .outOfResources
    let number := (← get).blockCount
    modify fun firmware =>
      { firmware with blocks := firmware.blocks ++ [number], blockCount := number + 1 }
    return .ok ⟨blockAddress number, List.replicate size.toNat 0xdd⟩

def freePool (block : UInt64) : StateM ScriptedFirmware (Outcome Status Unit) := do
  note "free_pool" ["#" ++ Numeral.decimal (blockNumber block)]
  changeKey
  scripted .free fun _ => do
    modify fun firmware =>
      { firmware with blocks := firmware.blocks.filter (· ≠ blockNumber block) }
    return .ok ()

def allocatePages (address : UInt64) (count : Nat) :
    StateM ScriptedFirmware (Outcome Status UInt64) := do
  note "allocate_pages_at" [Numeral.address address.toNat, Numeral.decimal count]
  changeKey
  scripted .pages fun _ => do
    let firmware ← get
    let first := address.toNat
    let last := first + count * Kernel.pageSize
    if ¬ firmware.memory.isFree firmware.reserved first last then return .fail .notFound
    set { firmware with reserved := firmware.reserved ++ [(first, last)] }
    return .ok address

def graphicsMode : StateM ScriptedFirmware (Outcome Status (Option Screen.Mode)) := do
  noteBare "first_graphics_device"
  changeKey
  scripted .graphics fun _ => return .ok (← get).graphics

def exitBootServices (key : UInt64) : StateM ScriptedFirmware (Outcome Status Unit) := do
  note "exit_boot_services" [Numeral.address key.toNat]
  scripted .exit fun _ => do
    if key ≠ (← get).key then return .fail .invalidParameter
    modify fun firmware => { firmware with exited := true }
    return .ok ()

/-- Stores reach the allocatable memory and the screen. -/
def changeMemory (change : Area → Area) : StateM ScriptedFirmware Unit :=
  modify fun firmware =>
    { firmware with memory := change firmware.memory, screen := firmware.screen.map change }

def answer : (request : Services.Request) → StateM ScriptedFirmware (Services.Reply request)
  | .memoryMap buffer => memoryMap buffer
  | .openFile path => openFile path
  | .createFile path => createFile path
  | .fileSize file => fileSize file
  | .readFile file count => readFile file count
  | .writeFile file data => writeFile file data
  | .closeFile _ => noteBare "close"
  | .allocatePool size => allocatePool size
  | .freePool block => freePool block
  | .allocatePages address count => allocatePages address count
  | .graphicsMode => graphicsMode
  | .exitBootServices key => exitBootServices key
  | .store address data => changeMemory (·.store address.toNat data)
  | .fill address count value => changeMemory (·.fill address.toNat count.toNat value)
  | .log record => modify fun firmware => { firmware with records := record :: firmware.records }

/-- Runs a program on the firmware. -/
def perform {α : Type} (program : Program Services α) : StateM ScriptedFirmware α :=
  program.run answer

end ScriptedFirmware

end EfiLoader.Testbed
