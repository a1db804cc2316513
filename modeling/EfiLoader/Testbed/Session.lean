import EfiLoader.Boot.Launch
import EfiLoader.Testbed.ScriptedFirmware

/-!
Test sessions: the parts of a boot attempt called one by one on one scripted firmware with one map
buffer. At most one memory map and one screen mode are kept between the steps, and a crash ends no
more than its step.
-/

namespace EfiLoader.Testbed

open Boot (Cause)

inductive SessionStep where
  /-- Changes the firmware. -/
  | set (change : ScriptedFirmware → ScriptedFirmware)
  | take
  | retake
  | inspect
  | saveListing (path : String)
  | writeListing (path : String)
  | findScreen
  | describeScreen
  | paintScreen (value : UInt8)
  | load (path : String)
  | exit
  | pool (size : UInt64)

inductive SessionResult where
  | done
  | failed (cause : Cause)
  | refused (status : Status)
  | crashed
  | noMap
  | noMode
  | entries (descriptors : List MemoryMap.Descriptor)
  | mode (mode : Screen.Mode)
  | frameBuffer (frameBuffer : Screen.FrameBuffer)
  | loaded (kernel : Kernel.Loaded)
  | exited

namespace SessionResult

/-- The result of a step that ended so. -/
def ofOutcome {α : Type} (result : α → SessionResult) : Outcome Cause α → SessionResult
  | .ok value => result value
  | .error (.failed cause) => failed cause
  | .error .crashed => crashed

def ofStatus {α : Type} (result : α → SessionResult) : Outcome Status α → SessionResult
  | .ok value => result value
  | .error (.failed status) => refused status
  | .error .crashed => crashed

end SessionResult

structure Session where
  firmware : ScriptedFirmware
  buffer : MemoryMap.Buffer
  /-- The description of the map in the buffer, if one is kept. -/
  report : Option Services.MapReport := none
  mode : Option Screen.Mode := none

/-- What one step did: its result, the calls and records it made, and the map after it. -/
structure SessionReport where
  result : SessionResult
  calls : List String
  records : List Log.Record
  map : Option MemoryMap

namespace Session

def map? (session : Session) : Option MemoryMap :=
  session.report.map fun report => ⟨session.buffer, report⟩

/-- Runs a program on the session's firmware. -/
def perform {α : Type} (program : Program Services α) : StateM Session α :=
  modifyGet fun session =>
    let (value, firmware) := ScriptedFirmware.perform program session.firmware
    (value, { session with firmware })

def withMap (step : MemoryMap → StateM Session SessionResult) : StateM Session SessionResult := do
  match (← get).map? with
  | none => return .noMap
  | some map => step map

def withMode (step : Screen.Mode → StateM Session SessionResult) :
    StateM Session SessionResult := do
  match (← get).mode with
  | none => return .noMode
  | some mode => step mode

/-- Keeps the map that a program leaves behind. -/
def keepMap (map : MemoryMap) : StateM Session Unit :=
  modify fun session => { session with buffer := map.buffer, report := some map.report }

def take : StateM Session SessionResult := do
  let (map, outcome) ← perform (MemoryMap.take (← get).buffer)
  modify fun session =>
    { session with buffer := map.buffer, report := outcome.toOption.map fun () => map.report }
  return .ofOutcome (fun () => .done) outcome

/-- Writes the map to a new file, as saving the listing does, and tells a refused file by its
status. -/
def writeListing (map : MemoryMap) (path : String) : StateM Session SessionResult := do
  match ← perform (Services.createFile path) with
  | .ok file =>
    let outcome ← perform do
      let saved ← (MemoryMap.Listing.write map file).run
      Services.closeFile file
      return saved
    return .ofOutcome (fun () => .done) outcome
  | .error (.failed status) => return .refused status
  | .error .crashed => return .crashed

def step : SessionStep → StateM Session SessionResult
  | .set change => do
    modify fun session => { session with firmware := change session.firmware }
    return .done
  | .take => take
  | .retake => withMap fun map => do
    let (map, outcome) ← perform map.retake
    keepMap map
    return .ofOutcome (fun () => .done) outcome
  | .inspect => withMap fun map => return .ofOutcome .entries map.inspect
  | .saveListing path => withMap fun map => do
    return .ofOutcome (fun () => .done) (← perform (MemoryMap.Listing.save map path).run)
  | .writeListing path => withMap fun map => writeListing map path
  | .findScreen => do
    let outcome ← perform Screen.find.run
    modify fun session => { session with mode := outcome.toOption <|> session.mode }
    return .ofOutcome .mode outcome
  | .describeScreen => withMode fun mode =>
    match Screen.describe mode with
    | .ok frameBuffer => return .frameBuffer frameBuffer
    | .error cause => return .failed cause
  | .paintScreen value => withMode fun mode => do
    perform (Screen.paint mode value)
    return .done
  | .load path => do return .ofOutcome .loaded (← perform (Kernel.load path).run)
  | .exit => withMap fun map => do
    let (map, outcome) ← perform (Boot.leave map)
    keepMap map
    return .ofOutcome (fun () => .exited) outcome
  | .pool size => do
    return .ofStatus (fun _ => .done) (← perform (Services.allocatePool size))

/-- One step with a report of all it did. -/
def reportedStep (s : SessionStep) : StateM Session SessionReport := do
  modify fun session =>
    { session with firmware := { session.firmware with calls := [], records := [] } }
  let result ← step s
  let session ← get
  return ⟨result, session.firmware.calls.reverse, session.firmware.records.reverse, session.map?⟩

def play (steps : List SessionStep) : StateM Session (List SessionReport) :=
  steps.mapM reportedStep

end Session

end EfiLoader.Testbed
