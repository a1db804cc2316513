import EfiLoader.Testbed.Area
import EfiLoader.Testbed.Pool
import EfiLoader.Testbed.Script
import EfiLoader.Testbed.Uart
import EfiLoader.Testbed.Volume
import EfiLoader.Uefi.Loader

/-!
A simulated machine with UEFI that follows a script. Its kernel returns as soon as it is entered.
-/

namespace EfiLoader.Testbed

inductive UefiService where
  | openLoadedImage | openDevicePath | locateDevicePath | openFileSystem | openVolume
  | open | delete | getPosition | setPosition | read | write
  | pool | free | pages | map | exit
  | locateGraphics | openGraphics | locateConsole | openConsole | clear
  deriving DecidableEq, Repr

/-- An open file or directory. -/
structure UefiHandle where
  name : String
  position : Nat
  isDirectory : Bool
  deriving DecidableEq, Repr

structure UefiMachine where
  regions : List MemoryMap.Descriptor := []
  stride : UInt64 := 40
  version : UInt32 := 1
  memory : Area := ⟨0x100000, List.replicate 0x4000 0xcc⟩
  /-- Taken ranges, without their ends. -/
  reserved : List (Nat × Nat) := []
  graphics : Option Screen.Mode := none
  screen : Option Area := none
  uarts : UartBank := {}
  revisions : Uefi.Revisions := ⟨0x10000, 0x20046⟩
  hasConsole : Bool := true
  hasDevice : Bool := true
  directories : List String := []
  files : Volume := []
  /-- Names of the files that were created, written or deleted. -/
  touched : List String := []
  handles : List UefiHandle := []
  script : Script UefiService := []
  key : UInt64 := 0x1000
  fixedKey : Bool := false
  /-- Addresses of the pool blocks in use. -/
  pool : List UInt64 := []
  blockCount : Nat := 0
  pageRequests : List (UInt64 × Nat) := []
  exits : List Status := []
  /-- What was printed, latest first. -/
  printed : List String := []
  clears : Nat := 0
  entered : Option (UInt64 × Option Screen.FrameBuffer) := none

namespace UefiMachine

open Uefi (FileMode Request Reply Revisions)

def changeKey : StateM UefiMachine Unit :=
  modify fun machine =>
    if machine.fixedKey then machine else { machine with key := machine.key + 1 }

def turn (service : UefiService) : StateM UefiMachine Turn :=
  modifyGet fun machine =>
    let (turn, script) := machine.script.next service
    (turn, { machine with script })

/-- Runs a call in its turn, unless the turn is a status. -/
def scripted {α : Type} (service : UefiService)
    (call : Turn → StateM UefiMachine (Except Status α)) :
    StateM UefiMachine (Except Status α) := do
  match ← turn service with
  | .status status => return .error status
  | turn => call turn

/-- A call that does no more than succeed. -/
def plain (service : UefiService) : StateM UefiMachine (Except Status Unit) :=
  scripted service fun _ => return .ok ()

/-- A name as the volume knows it, without one leading backslash. -/
def localName (name : String) : String :=
  match name.toList with
  | '\\' :: rest => String.ofList rest
  | _ => name

def handle (machine : UefiMachine) (file : Uefi.File) : UefiHandle :=
  machine.handles[file]?.getD ⟨"", 0, false⟩

def contents (machine : UefiMachine) (name : String) : Bytes :=
  (machine.files.contents? name).getD []

def touch (machine : UefiMachine) (name : String) : UefiMachine :=
  { machine with touched := name :: machine.touched.filter (· ≠ name) }

def setPlace (file : Uefi.File) (place : Nat) : StateM UefiMachine Unit :=
  modify fun machine =>
    { machine with handles := machine.handles.modify file fun h => { h with position := place } }

def openHandle (name : String) (isDirectory : Bool) : StateM UefiMachine Uefi.File :=
  modifyGet fun machine =>
    (machine.handles.length,
      { machine with handles := machine.handles ++ [⟨name, 0, isDirectory⟩] })

def openFile (name : String) (mode : FileMode) : StateM UefiMachine (Except Status Uefi.File) := do
  changeKey
  scripted .open fun _ => do
    let machine ← get
    let name := localName name
    if name ∈ machine.directories then return .ok (← openHandle name true)
    if (machine.files.contents? name).isNone then
      if mode ≠ .createReadWrite then return .error .notFound
      set ({ machine with files := machine.files.put name [] }.touch name)
    return .ok (← openHandle name false)

def deleteFile (file : Uefi.File) : StateM UefiMachine (Except Status Unit) :=
  scripted .delete fun _ => do
    modify fun machine =>
      let name := (machine.handle file).name
      { machine with files := machine.files.remove name }.touch name
    return .ok ()

def getPosition (file : Uefi.File) : StateM UefiMachine (Except Status UInt64) := do
  let handle := (← get).handle file
  if handle.isDirectory then return .error .unsupported
  scripted .getPosition fun _ => return .ok (.ofNat handle.position)

def setPosition (file : Uefi.File) (place : Option UInt64) :
    StateM UefiMachine (Except Status Unit) :=
  scripted .setPosition fun _ => do
    let machine ← get
    let size := (machine.contents (machine.handle file).name).length
    setPlace file ((place.map UInt64.toNat).getD size)
    return .ok ()

def readFile (file : Uefi.File) (count : Nat) : StateM UefiMachine (Except Status Bytes) :=
  scripted .read fun turn => do
    let machine ← get
    let handle := machine.handle file
    let data := ((machine.contents handle.name).drop handle.position).take
      (min count (turn.limit?.getD count))
    setPlace file (handle.position + data.length)
    return .ok data

/-- Writes over what is there and keeps what lies behind. -/
def writeFile (file : Uefi.File) (data : Bytes) : StateM UefiMachine (Except Status Unit) :=
  scripted .write fun _ => do
    let handle := (← get).handle file
    modify fun machine =>
      let old := machine.contents handle.name
      let new := old.take handle.position ++ data ++ old.drop (handle.position + data.length)
      { machine with files := machine.files.put handle.name new }.touch handle.name
    setPlace file (handle.position + data.length)
    return .ok ()

def allocatePool (size : UInt64) : StateM UefiMachine (Except Status Services.Block) := do
  changeKey
  scripted .pool fun _ => do
    if poolLimit < size.toNat then return .error .outOfResources
    let machine ← get
    let block := blockAddress machine.blockCount
    set { machine with pool := machine.pool ++ [block], blockCount := machine.blockCount + 1 }
    return .ok ⟨block, List.replicate size.toNat 0xdd⟩

def freePool (block : UInt64) : StateM UefiMachine (Except Status Unit) := do
  changeKey
  scripted .free fun _ => do
    modify fun machine => { machine with pool := machine.pool.erase block }
    return .ok ()

def allocatePages (address : UInt64) (count : Nat) : StateM UefiMachine (Except Status UInt64) := do
  changeKey
  modify fun machine => { machine with pageRequests := machine.pageRequests ++ [(address, count)] }
  scripted .pages fun _ => do
    let machine ← get
    let first := address.toNat
    let last := first + count * Kernel.pageSize
    if ¬ machine.memory.isFree machine.reserved first last then return .error .notFound
    set { machine with reserved := machine.reserved ++ [(first, last)] }
    return .ok address

/-- A status that is no error is returned after the map is written. -/
def memoryMap (buffer : Bytes) : StateM UefiMachine Uefi.MapReply := do
  let turn ← turn .map
  let machine ← get
  let nothing : Services.MapReport := ⟨0, 0, 0, 0⟩
  let status := turn.status?.getD .success
  if status.isError then return ⟨buffer, status, nothing⟩
  let stride := machine.stride.toNat
  let size := stride * machine.regions.length
  if buffer.length < size then return ⟨buffer, .bufferTooSmall, nothing⟩
  let report := turn.reported
  return ⟨MemoryMap.Descriptor.layOut stride 0 machine.regions buffer, status, {
    size := report.mapSize.getD (.ofNat size)
    key := machine.key
    stride := report.stride.getD machine.stride
    version := machine.version }⟩

def exitBootServices (key : UInt64) : StateM UefiMachine Status := do
  let turn ← turn .exit
  let machine ← get
  let status := turn.status?.getD (if key = machine.key then .success else .invalidParameter)
  set { machine with exits := machine.exits ++ [status] }
  return status

/-- How many devices of a kind there are; none is an error. -/
def locate (service : UefiService) (present : Bool) : StateM UefiMachine (Except Status Nat) := do
  changeKey
  scripted service fun turn =>
    match turn.reported.count with
    | some count => return .ok count
    | none => return if present then .ok 1 else .error .notFound

def openGraphics : StateM UefiMachine (Except Status Screen.Mode) :=
  scripted .openGraphics fun _ => do
    match (← get).graphics with
    | some mode => return .ok mode
    | none => return .error .unsupported

/-- The screen is cleared in any turn. -/
def clearConsole : StateM UefiMachine (Except Status Unit) := do
  modify fun machine => { machine with clears := machine.clears + 1 }
  plain .clear

def changeMemory (change : Area → Area) : StateM UefiMachine Unit :=
  modify fun machine =>
    { machine with memory := change machine.memory, screen := machine.screen.map change }

def answer : (request : Request) → StateM UefiMachine (Reply request)
  | .revisions => return (← get).revisions
  | .openLoadedImage => scripted .openLoadedImage fun _ => return .ok (← get).hasDevice
  | .openDevicePath => plain .openDevicePath
  | .locateDevicePath => do
    changeKey
    plain .locateDevicePath
  | .openFileSystem => plain .openFileSystem
  | .openVolume => plain .openVolume
  | .openFile name mode => openFile name mode
  | .deleteFile file => deleteFile file
  | .closeFile _ => pure ()
  | .getPosition file => getPosition file
  | .setPosition file place => setPosition file place
  | .readFile file count => readFile file count
  | .writeFile file data => writeFile file data
  | .allocatePool size => allocatePool size
  | .freePool block => freePool block
  | .allocatePages address count => allocatePages address count
  | .memoryMap buffer => memoryMap buffer
  | .exitBootServices key => exitBootServices key
  | .locateGraphics => do locate .locateGraphics (← get).graphics.isSome
  | .openGraphics => openGraphics
  | .locateConsole => do locate .locateConsole (← get).hasConsole
  | .openConsole => plain .openConsole
  | .clearConsole => clearConsole
  | .printConsole text => do
    modify fun machine => { machine with printed := text :: machine.printed }
    return .ok ()
  | .register request =>
    modifyGet fun machine =>
      let (reply, uarts) := (UartBank.answer request).run machine.uarts
      (reply, { machine with uarts })
  | .store address data => changeMemory (·.store address.toNat data)
  | .fill address count value => changeMemory (·.fill address.toNat count.toNat value)
  | .enterKernel entry argument =>
    modify fun machine => { machine with entered := some (entry, argument) }

/-- Runs a part of the loader on the machine. -/
def perform {α : Type} (part : Uefi.Loader α) (state : Uefi.LoaderState) :
    StateM UefiMachine (α × Uefi.LoaderState) :=
  (part.run state).run answer

end UefiMachine

end EfiLoader.Testbed
