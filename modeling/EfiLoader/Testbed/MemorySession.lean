import EfiLoader.Boot.Launch
import EfiLoader.Testbed.MemoryFirmware

/-!
Test sessions on firmware that lives in memory: its settings, its services one by one, and the parts
of a boot attempt on it. A crash ends no more than its step, and what was changed before it stays.
-/

namespace EfiLoader.Testbed

open Boot (Cause Failure Launch Options)

inductive MemoryStep where
  | set (change : MemoryFirmware → MemoryFirmware)
  | file (path : String)
  | physical (address size : Nat)
  | memoryMap (size : Nat)
  | openFile (path : String)
  | createFile (path : String)
  | fileSize (file : Nat)
  | readBytes (file : Nat) (size : UInt64)
  | writeBytes (file : Nat) (data : Bytes)
  | closeFile (file : Nat)
  | allocatePool (size : UInt64)
  | freePool (block : Nat)
  /-- Granted pages are filled, if a value is given. -/
  | allocatePages (address : UInt64) (count : Nat) (value : Option UInt8)
  | graphicsMode
  | exitBootServices (key : UInt64)
  | take
  | saveListing (path : String)
  | findScreen
  | load (path : String)
  | exit
  | prepare (options : Options)

inductive MemoryResult where
  | done
  | refused (status : Status)
  | failed (cause : Cause)
  | crashed
  | noMap
  | contents (bytes : Option Bytes)
  | filled (buffer : Bytes) (report : Services.MapReport)
  | number (n : Nat)
  | size (n : UInt64)
  | read (count : UInt64) (buffer : Bytes)
  | mode (mode : Option Screen.Mode)
  | map (map : MemoryMap)
  | loaded (kernel : Kernel.Loaded)
  | exited
  | attempt (outcome : Outcome Failure Launch)

namespace MemoryResult

def ofOutcome {α : Type} (result : α → MemoryResult) : Outcome Cause α → MemoryResult
  | .ok value => result value
  | .error (.failed cause) => failed cause
  | .error .crashed => crashed

def ofStatus {α : Type} (result : α → MemoryResult) : Outcome Status α → MemoryResult
  | .ok value => result value
  | .error (.failed status) => refused status
  | .error .crashed => crashed

end MemoryResult

structure MemorySession where
  firmware : MemoryFirmware := {}
  buffer : MemoryMap.Buffer := ⟨0x7e0000000000, List.replicate 4096 0⟩
  /-- The description of the map in the buffer, if one is kept. -/
  report : Option Services.MapReport := none
  /-- The files opened by steps, closed ones as nothing. -/
  files : List (Option Services.File) := []
  /-- The blocks handed out to steps, freed ones as nothing. -/
  blocks : List (Option UInt64) := []

namespace MemorySession

/-- Memory that no one has written to. -/
def scratch (size : Nat) : Bytes := List.replicate size 0xa5

def perform {α : Type} (program : Program Services α) : StateM MemorySession α :=
  modifyGet fun session =>
    let (value, firmware) := MemoryFirmware.perform program session.firmware
    (value, { session with firmware })

def withMap (step : MemoryMap → StateM MemorySession MemoryResult) :
    StateM MemorySession MemoryResult := do
  let session ← get
  match session.report with
  | none => return .noMap
  | some report => step ⟨session.buffer, report⟩

/-- An open file by its number; a number that is not in use is a crash. -/
def withFile (number : Nat) (step : Services.File → StateM MemorySession MemoryResult) :
    StateM MemorySession MemoryResult := do
  match (← get).files[number]?.join with
  | none => return .crashed
  | some file => step file

/-- Numbers a file that was opened. -/
def keepFile (outcome : Outcome Status Services.File) : StateM MemorySession MemoryResult :=
  modifyGet fun session =>
    (.ofStatus (fun _ => .number session.files.length) outcome,
      match outcome with
      | .ok file => { session with files := session.files ++ [some file] }
      | .error _ => session)

def allocatePool (size : UInt64) : StateM MemorySession MemoryResult := do
  let outcome ← perform (Services.allocatePool size)
  if let .ok block := outcome then
    modify fun session => { session with blocks := session.blocks ++ [some block.address] }
  return .ofStatus (fun block => .contents (some block.contents)) outcome

/-- Frees a block by its number; the address of a number that is not in use is no block's. -/
def freePool (number : Nat) : StateM MemorySession MemoryResult := do
  let address := (← get).blocks[number]?.join.getD 0
  let outcome ← perform (Services.freePool address)
  if let .ok () := outcome then
    modify fun session => { session with blocks := session.blocks.set number none }
  return .ofStatus (fun () => .done) outcome

def allocatePages (address : UInt64) (count : Nat) (value : Option UInt8) :
    StateM MemorySession MemoryResult := do
  let outcome ← perform (Services.allocatePages address count)
  if let (.ok pages, some value) := (outcome, value) then
    perform (Services.fill pages (.ofNat (count * Kernel.pageSize)) value)
  return .ofStatus (fun _ => .done) outcome

def take : StateM MemorySession MemoryResult := do
  let (map, outcome) ← perform (MemoryMap.take (← get).buffer)
  modify fun session =>
    { session with buffer := map.buffer, report := outcome.toOption.map fun () => map.report }
  return .ofOutcome (fun () => .map map) outcome

def step : MemoryStep → StateM MemorySession MemoryResult
  | .set change => do
    modify fun session => { session with firmware := change session.firmware }
    return .done
  | .file path => return .contents ((← get).firmware.files.volume.contents? path)
  | .physical address size =>
    return .ofStatus (fun bytes => .contents (some bytes))
      ((← get).firmware.physicalBytes address size)
  | .memoryMap size => do
    let reply ← perform (Services.memoryMap (scratch size))
    return .ofStatus (.filled reply.written) reply.outcome
  | .openFile path => do keepFile (← perform (Services.openFile path))
  | .createFile path => do keepFile (← perform (Services.createFile path))
  | .fileSize number => withFile number fun file => do
    return .ofStatus .size (← perform (Services.fileSize file))
  | .readBytes number size => withFile number fun file => do
    let outcome ← perform (Services.readFile file size)
    return .ofStatus
      (fun reply => .read reply.count ((scratch size.toNat).overlay 0 reply.data)) outcome
  | .writeBytes number data => withFile number fun file => do
    return .ofStatus (fun () => .done) (← perform (Services.writeFile file data))
  | .closeFile number => withFile number fun file => do
    perform (Services.closeFile file)
    modify fun session => { session with files := session.files.set number none }
    return .done
  | .allocatePool size => allocatePool size
  | .freePool number => freePool number
  | .allocatePages address count value => allocatePages address count value
  | .graphicsMode => do return .ofStatus .mode (← perform Services.graphicsMode)
  | .exitBootServices key => do
    return .ofStatus (fun () => .done) (← perform (Services.exitBootServices key))
  | .take => take
  | .saveListing path => withMap fun map => do
    return .ofOutcome (fun () => .done) (← perform (MemoryMap.Listing.save map path).run)
  | .findScreen => do
    return .ofOutcome (fun mode => .mode (some mode)) (← perform Screen.find.run)
  | .load path => do return .ofOutcome .loaded (← perform (Kernel.load path).run)
  | .exit => withMap fun map => do
    let (map, outcome) ← perform (Boot.leave map)
    modify fun session => { session with buffer := map.buffer, report := some map.report }
    return .ofOutcome (fun () => .exited) outcome
  | .prepare options => do
    modify fun session => { session with report := none }
    return .attempt (← perform (Boot.prepare (← get).buffer options).run)

/-- The steps in order, each with its result and the firmware after it. -/
def play (steps : List MemoryStep) :
    StateM MemorySession (List (MemoryResult × MemoryFirmware)) :=
  steps.mapM fun s => do
    let result ← step s
    return (result, (← get).firmware)

end MemorySession

end EfiLoader.Testbed
