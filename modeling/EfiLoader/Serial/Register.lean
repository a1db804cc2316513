import EfiLoader.Bytes
import EfiLoader.Program

/-!
Device registers at addresses of their own, as a serial driver uses them. Polling is one request:
its reply holds all values that were read, of which the last alone says ready.
-/

namespace EfiLoader

namespace Serial

/-- The line status bit that says that the transmitter takes another byte. -/
def transmitterReady : UInt8 := 0x20

/-- What polling the line status read, up to and with the first value that says ready. -/
structure Polls where
  busy : List UInt8
  ready : UInt8
  busy_clear : ∀ value ∈ busy, value &&& transmitterReady = 0
  ready_set : ready &&& transmitterReady ≠ 0

inductive RegisterRequest where
  | write (address : UInt16) (value : UInt8)
  | read (address : UInt16)
  /-- Reads the line status of the device at `base` until it says ready. -/
  | await (base : UInt16)
  deriving DecidableEq, Repr

@[reducible] def RegisterReply : RegisterRequest → Type
  | .write _ _ => Unit
  | .read _ => UInt8
  | .await _ => Polls

end Serial

abbrev Registers : Interface := ⟨Serial.RegisterRequest, Serial.RegisterReply⟩

namespace Registers

def ask (request : Serial.RegisterRequest) : Program Registers (Serial.RegisterReply request) :=
  @Program.request Registers request

def write (address : UInt16) (value : UInt8) : Program Registers Unit := ask (.write address value)

def read (address : UInt16) : Program Registers UInt8 := ask (.read address)

def await (base : UInt16) : Program Registers Serial.Polls := ask (.await base)

end Registers

end EfiLoader
