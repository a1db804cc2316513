import EfiLoader.Log.Layout
import EfiLoader.Serial.Uart
import EfiLoader.Settings
import EfiLoader.Uefi.Console

/-!
The log of the loader. The first set-up fixes the device, the layout and the level; a later one
fails and changes nothing. The console is there only as long as the system table is.
-/

namespace EfiLoader.Uefi

open Log (Level Record)
open Serial (Com Uart)

/-- Where records end up. -/
inductive Sink where
  | console
  | serial (uart : Uart)
  deriving DecidableEq, Repr

structure Logger where
  output : Option Sink
  sourcePath : Bool
  deriving DecidableEq, Repr

/-- The one logger of a process: not made yet, lost in a crash while it was made, or made. -/
inductive LoggerCell where
  | empty
  | poisoned
  | made (logger : Logger)
  deriving DecidableEq, Repr

/-- What outlives a call: the system table's presence, the logger, whether records go to it, and the
greatest level that does. -/
structure LoaderState where
  systemTable : Bool := true
  cell : LoggerCell := .empty
  installed : Bool := false
  maxLevel : Option Level := none
  deriving DecidableEq, Repr

abbrev Loader := StateT LoaderState (Program Uefi)

namespace Logger

/-- What a second set-up fails with. -/
inductive SetUpError where
  | alreadySet
  deriving DecidableEq, Repr

def SetUpError.message : SetUpError → String
  | alreadySet =>
    "attempted to set a logger after the logging system was already initialized"

/-- The cleared console, if there is one; a crash without a system table. -/
def consoleOutput : Loader (Outcome SetUpError (Option Sink)) := do
  if ¬ (← get).systemTable then return .crash
  if ← Console.openFirst then
    let _ ← ask .clearConsole
    return .ok (some .console)
  return .ok none

/-- The serial line, or the console if its device does not answer. -/
def serialOutput (com : Com) : Loader (Outcome SetUpError (Option Sink)) := do
  let uart ← onRegisters (Uart.setUp com .baud115200)
  if uart.present then return .ok (some (.serial uart)) else consoleOutput

def openOutput : Log.Device → Loader (Outcome SetUpError (Option Sink))
  | .console => consoleOutput
  | .com1 => serialOutput .com1
  | .com2 => serialOutput .com2
  | .null => return .ok none

/-- The process's logger, made from the settings if there is none yet. -/
def getOrMake (settings : Settings) : Loader (Outcome SetUpError Logger) := do
  match (← get).cell with
  | .made logger => return .ok logger
  | .poisoned => return .crash
  | .empty =>
    match ← openOutput settings.logDevice with
    | .ok output =>
      let logger := ⟨output, settings.logSourcePath⟩
      modify fun state => { state with cell := .made logger }
      return .ok logger
    | .error stop =>
      modify fun state => { state with cell := .poisoned }
      return .error stop

def setUp (settings : Settings) : Loader (Outcome SetUpError Unit) := do
  match ← getOrMake settings with
  | .error stop => return .error stop
  | .ok _ =>
    if (← get).installed then return .fail .alreadySet
    modify fun state => { state with installed := true, maxLevel := some settings.logLevel }
    return .ok ()

def printParts : List (List String) → Program Uefi Unit
  | [] => return ()
  | part :: rest => do
    Console.printPieces part
    printParts rest

def sendPieces (uart : Uart) : List String → Program Registers Unit
  | [] => return ()
  | piece :: rest => do
    uart.sendText piece
    sendPieces uart rest

/-- Writes one record. One that the console cannot be opened for is lost. -/
def emit (logger : Logger) (record : Record) : Loader Unit := do
  let parts := record.parts logger.sourcePath
  match logger.output with
  | none => return ()
  | some .console =>
    if (← get).systemTable then
      if ← Console.openFirst then printParts parts
  | some (.serial uart) => onRegisters (sendPieces uart parts.flatten)

end Logger

/-- Whether records of a level are logged. -/
def LoaderState.isEnabled (state : LoaderState) (level : Level) : Bool :=
  match state.maxLevel with
  | none => false
  | some limit => level.rank ≤ limit.rank

/-- Logs a record, if its level is not above the greatest, and tells whether it was not. -/
def log (record : Record) : Loader Bool := do
  let state ← get
  if ¬ state.isEnabled record.level then return false
  if let .made logger := state.cell then logger.emit record
  return true

end EfiLoader.Uefi
