import EfiLoader.Serial.Register

/-!
Serial lines over polled devices of the 16550 kind, sending only: eight data bits, one stop bit, no
parity.
-/

namespace EfiLoader.Serial

inductive Com where
  | com1
  | com2
  deriving DecidableEq, Repr

/-- Address of the first register. -/
def Com.base : Com → UInt16
  | com1 => 0x3f8
  | com2 => 0x2f8

inductive Baud where
  | baud9600
  | baud38400
  | baud115200
  deriving DecidableEq, Repr

def Baud.divisor : Baud → UInt16
  | baud9600 => 12
  | baud38400 => 3
  | baud115200 => 1

/-! Registers, from the base. Without the divisor latch the first takes the bytes to send. -/

def interruptEnable : UInt16 := 1
def fifoControl : UInt16 := 2
def lineControl : UInt16 := 3
def modemControl : UInt16 := 4
def lineStatus : UInt16 := 5
def scratch : UInt16 := 7

def eightDataBits : UInt8 := 0x03

/-- While this line control bit is set, the first two registers are the divisor. -/
def divisorLatch : UInt8 := 0x80

/-- What a scratch register has to give back. -/
def probe : UInt8 := 0x5a

structure Uart where
  base : UInt16
  present : Bool
  deriving DecidableEq, Repr

namespace Uart

/-- Sets the device up, if its scratch register answers. -/
def setUp (com : Com) (baud : Baud) : Program Registers Uart := do
  let base := com.base
  Registers.write (base + scratch) probe
  let present := (← Registers.read (base + scratch)) == probe
  if present then
    Registers.write (base + interruptEnable) 0
    Registers.write (base + lineControl) (divisorLatch ||| eightDataBits)
    Registers.write base baud.divisor.toUInt8
    Registers.write (base + interruptEnable) (baud.divisor >>> 8).toUInt8
    Registers.write (base + lineControl) eightDataBits
    Registers.write (base + fifoControl) 0x07
    Registers.write (base + modemControl) 0x03
  return ⟨base, present⟩

/-- Sends a byte as soon as the transmitter takes it; a device that is absent gets none. -/
def sendByte (uart : Uart) (byte : UInt8) : Program Registers Unit := do
  if uart.present then
    let _ ← Registers.await uart.base
    Registers.write uart.base byte

/-- The bytes that go over the line: a carriage return before every line feed. -/
def onLine (bytes : Bytes) : Bytes := bytes.flatMap fun b => if b = 10 then [13, 10] else [b]

def sendBytes (uart : Uart) : Bytes → Program Registers Unit
  | [] => return ()
  | b :: rest => do
    uart.sendByte b
    uart.sendBytes rest

def sendText (uart : Uart) (text : String) : Program Registers Unit :=
  uart.sendBytes (onLine (Bytes.utf8 text))

end Uart

end EfiLoader.Serial
